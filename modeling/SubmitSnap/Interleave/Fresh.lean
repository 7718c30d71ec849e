import SubmitSnap.Interleave.History
import SubmitSnap.Interleave.RelyGuarantee

/-!
# Fresh names

A request is given a name nobody has had before, keeps it to itself, and uses it once: the key of an
object, a secret, an identifier. That a used name determines its user rests on this discipline and
on nothing else, and the discipline rests on two things: a name that is given is new, and only the
request it was given to uses it.

## The argument

A name goes through two stages. It is given, and from then on it is held by one process; that
process uses it, and from then on it is used. `Fresh` says what holds of all names at once: what
is held or used is taken, what is held is not used, and what is held is held by one. A name that
is given is not taken (that is what new means), so giving it disturbs no other name. Using a name
takes it out of the hands of its holder, who is the only one to have it, so nobody is left who
could use it again. Both steps are local to one name, which is why the discipline survives any
interleaving.

What it is for: two processes that have used the same name are one process, and a name that is
still held has not been used by anybody.

## Main definitions

* `Naming` — which events give a name, and which use it.
* `Naming.Held`, `Naming.Used` — the two stages of its life.
* `Naming.Fresh` — a held name has one holder and has not been used.

## Main results

* `Naming.Fresh.cons` — every event that gives new names and uses held ones keeps it.
-/

namespace Interleave

/-- The events of type `α` that give or use a name of type `κ`, with the process they do it for. -/
structure Naming (α κ : Type) where
  gives : ℕ → κ → α → Prop
  uses : ℕ → κ → α → Prop

namespace Naming

variable {α κ : Type} (N : Naming α κ)

/-- `p` was given `k` and has not used it. -/
def Held (p : ℕ) (k : κ) : List α → Prop := Since (N.gives p k) (N.uses p k)

/-- `k` has been used, now or before the trace began. -/
def Used (old : κ → Prop) (k : κ) (log : List α) : Prop := old k ∨ ∃ e ∈ log, ∃ p, N.uses p k e

/-- Used names are taken; a held name is taken, has not been used, and has one holder. -/
structure Fresh (old taken : κ → Prop) (log : List α) : Prop where
  used : ∀ k, N.Used old k log → taken k
  held : ∀ p k, N.Held p k log → taken k ∧ ¬ N.Used old k log
  holder : ∀ p p' k, N.Held p k log → N.Held p' k log → p = p'

variable {N} {old taken taken' : κ → Prop} {log log' : List α} {e : α} {p p' : ℕ} {k : κ}

theorem Used.mono (h : N.Used old k log) (hlog : ∀ e ∈ log, e ∈ log') : N.Used old k log' := by
  refine h.imp_right ?_
  rintro ⟨e, he, p, hp⟩
  exact ⟨e, hlog e he, p, hp⟩

theorem used_cons : N.Used old k (e :: log) ↔ (∃ p, N.uses p k e) ∨ N.Used old k log := by
  constructor
  · rintro (hold | ⟨e', he', p, hp⟩)
    · exact .inr (.inl hold)
    · rcases List.mem_cons.mp he' with rfl | he'
      · exact .inl ⟨p, hp⟩
      · exact .inr (.inr ⟨e', he', p, hp⟩)
  · rintro (⟨p, hp⟩ | h)
    · exact .inr ⟨e, List.mem_cons_self, p, hp⟩
    · exact h.mono fun _ => List.mem_cons_of_mem _

theorem fresh_nil (hold : ∀ k, old k → taken k) : N.Fresh old taken [] where
  used := by
    rintro k (h | ⟨e, he, -⟩)
    · exact hold k h
    · exact absurd he List.not_mem_nil
  held := fun _ _ h => absurd h since_nil
  holder := fun _ _ _ h => absurd h since_nil

/-- Names stay taken. -/
theorem Fresh.mono (h : N.Fresh old taken log) (htaken : ∀ k, taken k → taken' k) :
    N.Fresh old taken' log where
  used := fun k hk => htaken k (h.used k hk)
  held := fun p k hk => ⟨htaken k (h.held p k hk).1, (h.held p k hk).2⟩
  holder := h.holder

/-- **The discipline.** An event that gives only new names, each to one process, and uses only names
that are held by the process it uses them for, keeps every name fresh. -/
theorem Fresh.cons (h : N.Fresh old taken log) (htaken : ∀ k, taken k → taken' k)
    (hgives : ∀ p k, N.gives p k e → ¬ taken k ∧ taken' k ∧ ∀ p', N.gives p' k e → p' = p)
    (huses : ∀ p k, N.uses p k e → N.Held p k log) : N.Fresh old taken' (e :: log) := by
  have hnew : ∀ {p p' k}, N.gives p k e → ¬ N.Held p' k log := fun hg hh =>
    (hgives _ _ hg).1 (h.held _ _ hh).1
  refine ⟨fun k hk => ?_, fun p k hk => ?_, fun p p' k hk hk' => ?_⟩
  · rcases used_cons.mp hk with ⟨p, hp⟩ | hk
    · exact htaken k (h.held p k (huses p k hp)).1
    · exact htaken k (h.used k hk)
  · rcases hk with hg | ⟨hnot, hk⟩
    · refine ⟨(hgives p k hg).2.1, fun hused => ?_⟩
      rcases used_cons.mp hused with ⟨p', hp'⟩ | hused
      · exact hnew hg (huses p' k hp')
      · exact (hgives p k hg).1 (h.used k hused)
    · refine ⟨htaken k (h.held p k hk).1, fun hused => ?_⟩
      rcases used_cons.mp hused with ⟨p', hp'⟩ | hused
      · obtain rfl := h.holder p' p k (huses p' k hp') hk
        exact hnot hp'
      · exact (h.held p k hk).2 hused
  · rcases hk with hg | ⟨-, hk⟩ <;> rcases hk' with hg' | ⟨-, hk'⟩
    · exact (hgives p' k hg').2.2 p hg
    · exact absurd hk' (hnew hg)
    · exact absurd hk (hnew hg')
    · exact h.holder p p' k hk hk'

/-- An event that gives and uses no name. -/
theorem Fresh.idle (h : N.Fresh old taken log) (htaken : ∀ k, taken k → taken' k)
    (hgives : ∀ p k, ¬ N.gives p k e) (huses : ∀ p k, ¬ N.uses p k e) :
    N.Fresh old taken' (e :: log) :=
  h.cons htaken (fun p k hg => absurd hg (hgives p k)) fun p k hu => absurd hu (huses p k)

end Naming

end Interleave
