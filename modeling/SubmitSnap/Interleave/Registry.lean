import SubmitSnap.Interleave.Fresh

/-!
# Registries: who a thing belongs to

A thing is entered once, under its owner, and whoever mentions it later repeats what was entered.
The register itself is nowhere in the state: it is read off the trace and off what was there before
the trace began. It is a function as long as only things that are not yet taken are entered.

## The argument

Two entries of one thing under two owners would have to be made one after the other, and the later
one would be of a thing that was taken by then. So it is enough that an event enters nothing that
is taken and does not enter one thing twice itself. What is taken only grows, and may be more than
what has been entered: an identifier that was generated and never used is taken as well.

## Main definitions

* `Registered` — a thing has been entered under an owner.
* `OneOwner` — no thing has two owners.

## Main results

* `OneOwner.cons` — entering things that are not yet taken keeps it so.
-/

namespace Interleave

variable {α κ ο : Type}

/-- `k` has been entered under `o`, now or before the trace began. -/
def Registered (old : κ → ο → Prop) (enters : κ → ο → α → Prop) (log : List α) (k : κ) (o : ο) :
    Prop :=
  old k o ∨ ∃ e ∈ log, enters k o e

/-- Every entry is of a thing that is taken, and no thing has two owners. -/
structure OneOwner (own : κ → ο → Prop) (taken : κ → Prop) : Prop where
  taken : ∀ k o, own k o → taken k
  unique : ∀ k o o', own k o → own k o' → o = o'

variable {old own : κ → ο → Prop} {enters : κ → ο → α → Prop} {taken taken' : κ → Prop}
  {log log' : List α} {e : α} {k : κ} {o : ο}

theorem Registered.mono (h : Registered old enters log k o) (hlog : ∀ e ∈ log, e ∈ log') :
    Registered old enters log' k o := by
  refine h.imp_right ?_
  rintro ⟨e, he, hk⟩
  exact ⟨e, hlog e he, hk⟩

theorem Registered.of_enters (he : e ∈ log) (hk : enters k o e) : Registered old enters log k o :=
  .inr ⟨e, he, hk⟩

theorem registered_cons :
    Registered old enters (e :: log) k o ↔ enters k o e ∨ Registered old enters log k o := by
  constructor
  · rintro (hold | ⟨e', he', hk⟩)
    · exact .inr (.inl hold)
    · rcases List.mem_cons.mp he' with rfl | he'
      · exact .inl hk
      · exact .inr (.inr ⟨e', he', hk⟩)
  · rintro (hk | h)
    · exact .of_enters List.mem_cons_self hk
    · exact h.mono fun _ => List.mem_cons_of_mem _

theorem OneOwner.nil (htaken : ∀ k o, old k o → taken k)
    (hunique : ∀ k o o', old k o → old k o' → o = o') :
    OneOwner (Registered old enters ([] : List α)) taken := by
  have hold : ∀ {k o}, Registered old enters ([] : List α) k o → old k o := by
    rintro k o (h | ⟨e, he, -⟩)
    · exact h
    · exact absurd he List.not_mem_nil
  exact ⟨fun k o h => htaken k o (hold h), fun k o o' h h' => hunique k o o' (hold h) (hold h')⟩

theorem OneOwner.mono (h : OneOwner own taken) (htaken : ∀ k, taken k → taken' k) :
    OneOwner own taken' :=
  ⟨fun k o hk => htaken k (h.taken k o hk), h.unique⟩

/-- **Nothing gets a second owner** if an event enters only things that are not taken yet, each
under one owner. -/
theorem OneOwner.cons (h : OneOwner (Registered old enters log) taken)
    (htaken : ∀ k, taken k → taken' k)
    (hnew : ∀ k o, enters k o e → ¬ taken k ∧ taken' k ∧ ∀ o', enters k o' e → o' = o) :
    OneOwner (Registered old enters (e :: log)) taken' where
  taken := by
    intro k o hk
    rcases registered_cons.mp hk with he | hk
    · exact (hnew k o he).2.1
    · exact htaken k (h.taken k o hk)
  unique := by
    intro k o o' hk hk'
    rcases registered_cons.mp hk with he | hk <;> rcases registered_cons.mp hk' with he' | hk'
    · exact (hnew k o' he').2.2 o he
    · exact absurd (h.taken k o' hk') (hnew k o he).1
    · exact absurd (h.taken k o hk) (hnew k o' he').1
    · exact h.unique k o o' hk hk'

/-- An event that enters nothing. -/
theorem OneOwner.idle (h : OneOwner (Registered old enters log) taken)
    (htaken : ∀ k, taken k → taken' k) (hidle : ∀ k o, ¬ enters k o e) :
    OneOwner (Registered old enters (e :: log)) taken' :=
  h.cons htaken fun k o he => absurd he (hidle k o)

end Interleave
