import SubmitSnap.Interleave.History
import SubmitSnap.Interleave.Footprint

/-!
# Rely–guarantee reasoning about scripts

An invariant of every reachable world is proved in two halves. One half is about single
statements: each keeps the invariant provided its *precondition* holds, and is seen by every other
request as a step of that request's *rely*. The other half is about single scripts: whenever one
gets to a statement, the precondition holds, whatever the others have done meanwhile. `Logic`
states the first half; `Logic.wp`, defined by recursion on the script, is the second; and
`Logic.safe_of_reaches` puts them together for any number of requests in any interleaving.

## The shape of a proof

There are three layers. At the bottom stand the statements: what each does to the invariant is
said once, in `sound`, and nowhere else. In the middle stands one lemma for each function of the
code. Its hypotheses say what `p` has read so far, its postcondition what `p` has read or done by
then, both as properties of the trace; a caller cites it and does not look inside. At the top
stands the weakest precondition of every request, started on a trace that does not mention it.

Between two statements of its own a request sees `Env`: the invariant holds again, whatever was
added to the trace was added by others, and the others have kept to `rely`. A fact that survives
such a step is *stable*, and only stable facts can be carried from one statement to the next. Most
facts about the database are not stable, which is the reason why code that reads first and writes
later is wrong more often than it looks. What is stable is what `p` has read (the trace keeps it),
what nobody is able to change (an identifier stays given out), and what a lock protects.

## Why it is sound

The induction over the run carries, for every request in flight, that the rest of its script has
its weakest precondition in the present state. A statement of `p` uses up one step of `p`. For
everybody else it is a step of the environment, and a weakest precondition survives those
(`wp_env`). Nothing is said about who else there is, so requests may arrive at any time. A name
that nobody has yet is one that the trace does not mention (`Safe.fresh`), and that is why the
specification of a request may start from a trace on which it has done nothing.

A statement that has to wait takes no step, so nothing is owed for it: `wp` is about partial
correctness. That a script comes to an end is a different question, and is settled where a script
runs on its own.

## Implementation notes

The trace needs no rely of its own. `Others p` says that everything added to it was done by
somebody other than `p`, and it is built into `wp`: a precondition that only speaks of what `p` has
read or written itself is stable for free.

A precondition may speak of the trace, so "the row was read before it was written" is a
precondition, not an extra state component.

## Main definitions

* `Logic` — invariant, rely and preconditions, sound for a regime.
* `Logic.wp` — the weakest precondition of a script.

## Main results

* `Logic.safe_of_reaches`, `Logic.inv_of_reaches` — adequacy, for the logic's own invariant and for
  one that rests on its preconditions.
* `Logic.wp_prod` — two logics for the same scripts can be combined.
* `Logic.wp_bind`, `Logic.wp_query_bind`, `Logic.wp_forEach` — the rules for writing scripts.
* `Logic.wp_grows` — the frame rule for the trace.
* `Logic.wp_of_does` — what can be said of a script without looking at the state is used here.
-/

namespace Interleave

variable {Q : Type} {R : Q → Type} {X σ ι η Req : Type} {Err Res : Req → Type}

/-- Between the two states only others have executed statements. -/
def Others (p : ℕ) (s s' : Shared R X σ Req) : Prop :=
  ∃ new, s'.log = new ++ s.log ∧ ∀ e ∈ new, e.pid ≠ p

theorem Others.refl (p : ℕ) (s : Shared R X σ Req) : Others p s s := ⟨[], rfl, by simp⟩

theorem Others.trans {p : ℕ} {s s' s'' : Shared R X σ Req} (h : Others p s s')
    (h' : Others p s' s'') : Others p s s'' := by
  obtain ⟨new, hnew, hp⟩ := h
  obtain ⟨new', hnew', hp'⟩ := h'
  refine ⟨new' ++ new, by rw [hnew', hnew, List.append_assoc], fun e he => ?_⟩
  rcases List.mem_append.mp he with he | he
  · exact hp' e he
  · exact hp e he

theorem Others.mem {p : ℕ} {s s' : Shared R X σ Req} (h : Others p s s')
    {e : Event R X σ Req} (he : e ∈ s.log) : e ∈ s'.log := by
  obtain ⟨new, hnew, -⟩ := h
  rw [hnew]
  exact List.mem_append_right _ he

/-- What `p` itself has done is the same in both states. -/
theorem Others.mem_iff {p : ℕ} {s s' : Shared R X σ Req} (h : Others p s s')
    {e : Event R X σ Req} (hp : e.pid = p) : e ∈ s'.log ↔ e ∈ s.log := by
  refine ⟨fun he => ?_, h.mem⟩
  obtain ⟨new, hnew, hne⟩ := h
  rw [hnew] at he
  rcases List.mem_append.mp he with he | he
  · exact absurd hp (hne e he)
  · exact he

/-- A past-time property of what `p` itself has done is the same in both states. -/
theorem Others.since_iff {p : ℕ} {s s' : Shared R X σ Req} (h : Others p s s')
    {mark reset : Event R X σ Req → Prop} (hmark : ∀ e, mark e → e.pid = p)
    (hreset : ∀ e, reset e → e.pid = p) :
    Since mark reset s'.log ↔ Since mark reset s.log := by
  obtain ⟨new, hnew, hne⟩ := h
  rw [hnew]
  clear hnew
  induction new with
  | nil => exact Iff.rfl
  | cons e new ih =>
    have he : e.pid ≠ p := hne e List.mem_cons_self
    rw [List.cons_append, since_cons_of_not (fun hm => he (hmark e hm)) fun hr => he (hreset e hr)]
    exact ih fun e' he' => hne e' (List.mem_cons_of_mem _ he')

/-- All that `p` itself has done satisfies `φ`. -/
def Own (p : ℕ) (φ : Event R X σ Req → Prop) (log : List (Event R X σ Req)) : Prop :=
  ∀ e ∈ log, e.pid = p → φ e

section Own

variable {p : ℕ} {s s' : Shared R X σ Req} {φ ψ : Event R X σ Req → Prop}
  {log : List (Event R X σ Req)}

theorem Own.of_fresh (h : ∀ e ∈ log, e.pid ≠ p) : Own p φ log :=
  fun e he hp => absurd hp (h e he)

theorem Own.mono (h : Own p φ log) (hφ : ∀ e, φ e → ψ e) : Own p ψ log :=
  fun e he hp => hφ e (h e he hp)

theorem Own.of_others (h : Own p φ s.log) (ho : Others p s s') : Own p φ s'.log :=
  fun e he hp => h e ((ho.mem_iff hp).mp he) hp

theorem Own.effect {G : Regime R X σ Req} {S : Store R X σ ι η} {r : Req} {q : Q}
    {x : Except X (R q)} (h : Own p φ s.log) (hx : G.Effect S p r q s x s')
    (hnew : φ ⟨p, r, s.db, q, x⟩) : Own p φ s'.log := by
  intro e he hp
  rw [hx.log_eq] at he
  rcases List.mem_cons.mp he with rfl | he
  · exact hnew
  · exact h e he hp

end Own

/-- How many statements `p` has executed. -/
def taken (p : ℕ) (log : List (Event R X σ Req)) : ℕ := log.countP (·.pid = p)

section Taken

variable {p : ℕ} {s s' : Shared R X σ Req} {log : List (Event R X σ Req)}

theorem taken_eq_zero (h : ∀ e ∈ log, e.pid ≠ p) : taken p log = 0 :=
  List.countP_eq_zero.mpr fun e he => by simp [h e he]

theorem taken_of_others (h : Others p s s') : taken p s'.log = taken p s.log := by
  obtain ⟨new, hnew, hne⟩ := h
  rw [hnew, taken, List.countP_append]
  exact (congrArg (· + _) (taken_eq_zero hne)).trans (Nat.zero_add _)

theorem taken_effect {G : Regime R X σ Req} {S : Store R X σ ι η} {r : Req} {q : Q}
    {x : Except X (R q)} (h : G.Effect S p r q s x s') :
    taken p s'.log = taken p s.log + 1 := by
  rw [h.log_eq, taken, List.countP_cons_of_pos (by simp)]
  rfl

end Taken

/-- Invariant, rely and preconditions, with the proof that single statements respect them. -/
structure Logic (G : Regime R X σ Req) (S : Store R X σ ι η) where
  /-- What holds of the shared state between any two statements. -/
  inv : Shared R X σ Req → Prop
  /-- What `p` may count on the others for, beyond the trace. -/
  rely : ℕ → Shared R X σ Req → Shared R X σ Req → Prop
  /-- What has to hold when `p` executes a statement. -/
  pre : ℕ → Req → Q → Shared R X σ Req → Prop
  rely_refl : ∀ p s, rely p s s
  rely_trans : ∀ {p s s' s''}, rely p s s' → rely p s' s'' → rely p s s''
  /-- A statement whose precondition holds keeps the invariant and everybody else's rely. -/
  sound : ∀ {p r q s x s'}, inv s → pre p r q s → G.Effect S p r q s x s' →
    inv s' ∧ ∀ p', p' ≠ p → rely p' s s'
  /-- So does a process that stops. -/
  stop_sound : ∀ {p s}, G.stops → inv s →
    inv { s with db := S.abort p s.db } ∧
      ∀ p', p' ≠ p → rely p' s { s with db := S.abort p s.db }
  /-- And so does the environment. -/
  pass_sound : ∀ {e s}, inv s →
    inv { s with db := S.pass e s.db } ∧ ∀ p', rely p' s { s with db := S.pass e s.db }

namespace Logic

/-- The logic of what holds whenever a statement is executed: nothing else is kept, and nobody is
counted on beyond the trace. -/
def ofPre {G : Regime R X σ Req} {S : Store R X σ ι η}
    (pre : ℕ → Req → Q → Shared R X σ Req → Prop) : Logic G S where
  inv _ := True
  rely _ _ _ := True
  pre := pre
  rely_refl _ _ := trivial
  rely_trans _ _ := trivial
  sound _ _ _ := ⟨trivial, fun _ _ => trivial⟩
  stop_sound _ _ := ⟨trivial, fun _ _ => trivial⟩
  pass_sound _ := ⟨trivial, fun _ => trivial⟩

variable {G : Regime R X σ Req} {S : Store R X σ ι η} (L : Logic G S)

/-- What `p` may find changed between two statements of its own. -/
structure Env (p : ℕ) (s s' : Shared R X σ Req) : Prop where
  inv : L.inv s'
  others : Others p s s'
  rely : L.rely p s s'

variable {L} {p : ℕ} {r : Req} {s s' s'' : Shared R X σ Req}

theorem Env.refl (hs : L.inv s) : L.Env p s s := ⟨hs, Others.refl p s, L.rely_refl p s⟩

theorem Env.trans (h : L.Env p s s') (h' : L.Env p s' s'') : L.Env p s s'' :=
  ⟨h'.inv, h.others.trans h'.others, L.rely_trans h.rely h'.rely⟩

/-! ### The weakest precondition -/

variable {ε ε' α β : Type}

variable (L) in
/-- Whenever the script, run by `p` for `r` from `s` among others, gets to a statement, that
statement's precondition holds; and `Φ` holds from the moment it has ended. -/
def wp (p : ℕ) (r : Req) :
    Script R X ε α → (Except ε α → Shared R X σ Req → Prop) → Shared R X σ Req → Prop
  | .ret a, Φ, s => ∀ s', L.Env p s s' → Φ (.ok a) s'
  | .throw e, Φ, s => ∀ s', L.Env p s s' → Φ (.error e) s'
  | .call q k, Φ, s => ∀ s', L.Env p s s' → L.pre p r q s' ∧
      ∀ x s'', G.Effect S p r q s' x s'' → L.inv s'' → wp p r (k x) Φ s''

variable {Φ Ψ : Except ε α → Shared R X σ Req → Prop}

/-- What others do does not invalidate a weakest precondition. -/
theorem wp_env {x : Script R X ε α} (h : L.wp p r x Φ s) (he : L.Env p s s') :
    L.wp p r x Φ s' := by
  cases x with
  | ret a => exact fun s'' he' => h s'' (he.trans he')
  | throw e => exact fun s'' he' => h s'' (he.trans he')
  | call q k => exact fun s'' he' => h s'' (he.trans he')

theorem wp_mono {x : Script R X ε α} (h : L.wp p r x Ψ s)
    (hΦ : ∀ y s', L.inv s' → Ψ y s' → Φ y s') : L.wp p r x Φ s := by
  induction x generalizing s with
  | ret a => exact fun s' he => hΦ _ s' he.inv (h s' he)
  | throw e => exact fun s' he => hΦ _ s' he.inv (h s' he)
  | call q k ih =>
    intro s' he
    refine ⟨(h s' he).1, fun x s'' hx hs'' => ?_⟩
    exact ih x ((h s' he).2 x s'' hx hs'')

/-- **Sequencing.** -/
theorem wp_bind {x : Script R X ε β} {f : β → Script R X ε α}
    {Ψ : Except ε β → Shared R X σ Req → Prop} (hs : L.inv s) (h : L.wp p r x Ψ s)
    (hok : ∀ b s', L.inv s' → Ψ (.ok b) s' → L.wp p r (f b) Φ s')
    (herr : ∀ e s', L.inv s' → Ψ (.error e) s' → Φ (.error e) s') :
    L.wp p r (x >>= f) Φ s := by
  induction x generalizing s with
  | ret b => exact hok b s hs (h s (.refl hs))
  | throw e => exact fun s' he => herr e s' he.inv (h s' he)
  | call q k ih =>
    intro s' he
    refine ⟨(h s' he).1, fun x s'' hx hs'' => ?_⟩
    exact ih x hs'' ((h s' he).2 x s'' hx hs'')

/-- Sequencing, when nothing has to be known in between. -/
theorem wp_seq {x : Script R X ε β} {f : β → Script R X ε α} (hs : L.inv s)
    (h : L.wp p r x (fun _ _ => True) s)
    (hf : ∀ b s', L.inv s' → L.wp p r (f b) (fun _ _ => True) s') :
    L.wp p r (x >>= f) (fun _ _ => True) s :=
  wp_bind hs h (fun b s' hs' _ => hf b s' hs') fun _ _ _ _ => trivial

/-- One statement under `?`, and what follows. -/
theorem wp_query_bind [Raises X ε] {q : Q} {f : R q → Script R X ε α}
    (h : ∀ s', L.Env p s s' → L.pre p r q s' ∧
      (∀ a s'', G.Effect S p r q s' (.ok a) s'' → L.inv s'' → L.wp p r (f a) Φ s'') ∧
      (∀ e s'', G.Effect S p r q s' (.error e) s'' → L.inv s'' →
        ∀ s''', L.Env p s'' s''' → Φ (.error (Raises.raise e)) s''')) :
    L.wp p r (Script.query q >>= f) Φ s := by
  intro s' he
  obtain ⟨hpre, hok, herr⟩ := h s' he
  refine ⟨hpre, fun x s'' hx hs'' => ?_⟩
  cases x with
  | ok a => exact hok a s'' hx hs''
  | error e => exact herr e s'' hx hs''

/-- One statement under `?` at the end of a script. -/
theorem wp_query [Raises X ε] {q : Q} {Φ : Except ε (R q) → Shared R X σ Req → Prop}
    (h : ∀ s', L.Env p s s' → L.pre p r q s' ∧
      (∀ a s'', G.Effect S p r q s' (.ok a) s'' → L.inv s'' →
        ∀ s''', L.Env p s'' s''' → Φ (.ok a) s''') ∧
      (∀ e s'', G.Effect S p r q s' (.error e) s'' → L.inv s'' →
        ∀ s''', L.Env p s'' s''' → Φ (.error (Raises.raise e)) s''')) :
    L.wp p r (Script.query q) Φ s := by
  intro s' he
  obtain ⟨hpre, hok, herr⟩ := h s' he
  refine ⟨hpre, fun x s'' hx hs'' => ?_⟩
  cases x with
  | ok a => exact hok a s'' hx hs''
  | error e => exact herr e s'' hx hs''

/-- One statement whose failure the code looks at. -/
theorem wp_attempt_bind {q : Q} {f : Except X (R q) → Script R X ε α}
    (h : ∀ s', L.Env p s s' → L.pre p r q s' ∧
      ∀ x s'', G.Effect S p r q s' x s'' → L.inv s'' → L.wp p r (f x) Φ s'') :
    L.wp p r (Script.attempt q >>= f) Φ s := h

/-- A value that need not be there, and what follows. -/
theorem wp_unwrap_bind {e : ε} {x : Option β} {f : β → Script R X ε α}
    (hsome : ∀ b, x = some b → L.wp p r (f b) Φ s)
    (hnone : x = none → ∀ s', L.Env p s s' → Φ (.error e) s') :
    L.wp p r (Script.unwrap e x >>= f) Φ s := by
  cases x with
  | some b => exact hsome b rfl
  | none => exact hnone rfl

theorem wp_mapError {f : ε' → ε} {x : Script R X ε' α}
    (h : L.wp p r x (fun y => Φ (y.mapError f)) s) : L.wp p r (x.mapError f) Φ s := by
  induction x generalizing s with
  | ret a => exact h
  | throw e => exact h
  | call q k ih =>
    intro s' he
    exact ⟨(h s' he).1, fun x s'' hx hs'' => ih x ((h s' he).2 x s'' hx hs'')⟩

theorem wp_result {x : Script R X ε' α} {Φ : Except ε (Except ε' α) → Shared R X σ Req → Prop}
    (h : L.wp p r x (fun y => Φ (.ok y)) s) :
    L.wp p r (x.result : Script R X ε (Except ε' α)) Φ s := by
  induction x generalizing s with
  | ret a => exact h
  | throw e => exact h
  | call q k ih =>
    intro s' he
    exact ⟨(h s' he).1, fun x s'' hx hs'' => ih x ((h s' he).2 x s'' hx hs'')⟩

/-- A branch without `else`. -/
theorem wp_when {c : Bool} {x : Script R X ε Unit} {Φ : Except ε Unit → Shared R X σ Req → Prop}
    (hthen : c = true → L.wp p r x Φ s) (helse : c = false → ∀ s', L.Env p s s' → Φ (.ok ()) s') :
    L.wp p r (Script.when c x) Φ s := by
  cases c with
  | true => exact hthen rfl
  | false => exact helse rfl

/-- A statement that runs however the script ends. -/
theorem wp_ensuring {q : Q} {x : Script R X ε α} (hs : L.inv s)
    (h : L.wp p r x (fun y s' => ∀ s'', L.Env p s' s'' → L.pre p r q s'' ∧
      ∀ a s₁, G.Effect S p r q s'' a s₁ → L.inv s₁ → ∀ s₂, L.Env p s₁ s₂ → Φ y s₂) s) :
    L.wp p r (x.ensuring q) Φ s := by
  induction x generalizing s with
  | ret a => exact h s (.refl hs)
  | throw e => exact h s (.refl hs)
  | call q' k ih =>
    intro s' he
    exact ⟨(h s' he).1, fun x s'' hx hs'' => ih x hs'' ((h s' he).2 x s'' hx hs'')⟩

/-- A loop, with an invariant that says what is left to do. -/
theorem wp_forEach {f : β → Script R X ε Unit} {Φ : Except ε Unit → Shared R X σ Req → Prop}
    (J : List β → Shared R X σ Req → Prop)
    (hbody : ∀ b bs s, L.inv s → J (b :: bs) s →
      L.wp p r (f b) (fun y s' => match y with
        | .ok () => J bs s'
        | .error e => Φ (.error e) s') s)
    (hend : ∀ s s', J [] s → L.Env p s s' → Φ (.ok ()) s') :
    ∀ (bs : List β) (s : Shared R X σ Req), L.inv s → J bs s →
      L.wp p r (Script.forEach f bs) Φ s
  | [], s, _, hJ => fun s' he => hend s s' hJ he
  | b :: bs, s, hs, hJ =>
    wp_bind hs (hbody b bs s hs hJ)
      (fun _ s' hs' hJ' => wp_forEach J hbody hend bs s' hs' hJ') fun _ _ _ h => h

/-- **The trace is a frame**: whatever a script does, it only adds to it. -/
theorem wp_grows {s₀ : Shared R X σ Req} {x : Script R X ε α} (h : L.wp p r x Φ s)
    (hs : ∀ e ∈ s₀.log, e ∈ s.log) :
    L.wp p r x (fun y s' => Φ y s' ∧ ∀ e ∈ s₀.log, e ∈ s'.log) s := by
  induction x generalizing s with
  | ret a => exact fun s' he => ⟨h s' he, fun e hmem => he.others.mem (hs e hmem)⟩
  | throw e => exact fun s' he => ⟨h s' he, fun e hmem => he.others.mem (hs e hmem)⟩
  | call q k ih =>
    intro s' he
    refine ⟨(h s' he).1, fun x s'' hx hs'' => ih x ((h s' he).2 x s'' hx hs'') fun e hmem => ?_⟩
    exact hx.mem (he.others.mem (hs e hmem))

/-! ### Adequacy -/

variable (L) in
/-- The invariant holds and every request in flight will keep to its preconditions. -/
structure Safe (post : (p : ℕ) → (r : Req) → Except (Err r) (Res r) → Shared R X σ Req → Prop)
    (w : World R X σ Err Res) : Prop where
  inv : L.inv w.shared
  code : ∀ p r x, w.procs p = some ⟨r, some x⟩ → L.wp p r x (post p r) w.shared
  /-- A name nobody has yet is one the trace does not mention. -/
  fresh : ∀ p, w.procs p = none → ∀ e ∈ w.shared.log, e.pid ≠ p

variable {post : (p : ℕ) → (r : Req) → Except (Err r) (Res r) → Shared R X σ Req → Prop}
  {w w' : World R X σ Err Res}

theorem Safe.start {db : σ} (h : L.inv ⟨db, []⟩) :
    L.Safe post (World.start db : World R X σ Err Res) :=
  ⟨h, by simp [World.start], by simp [World.start]⟩

/-- Replacing the shared state and one request keeps `Safe`, if the others' relies allow it. -/
theorem Safe.resume (hw : L.Safe post w) {proc : Proc R X Err Res} {s' : Shared R X σ Req}
    (hs' : L.inv s') (hlog : ∃ new, s'.log = new ++ w.shared.log ∧ ∀ e ∈ new, e.pid = p)
    (hrely : ∀ p', p' ≠ p → L.rely p' w.shared s')
    (hcode : ∀ x, proc.code = some x → L.wp p proc.req x (post p proc.req) s') :
    L.Safe post (w.resume p s' proc) := by
  obtain ⟨new, hnew, hown⟩ := hlog
  refine ⟨hs', fun p' r x h => ?_, fun p' h e he => ?_⟩
  · by_cases hp : p' = p
    · subst hp
      simp only [World.resume, Function.update_self, Option.some.injEq] at h
      subst h
      exact hcode x rfl
    · simp only [World.resume, Function.update_of_ne hp] at h
      refine wp_env (hw.code p' r x h) ⟨hs', ⟨new, hnew, fun e he heq => ?_⟩, hrely p' hp⟩
      exact hp (heq.symm.trans (hown e he))
  · by_cases hp : p' = p
    · subst hp
      simp [World.resume] at h
    · simp only [World.resume, Function.update_of_ne hp] at h
      change e ∈ s'.log at he
      rw [hnew] at he
      rcases List.mem_append.mp he with he | he
      · rw [hown e he]
        exact Ne.symm hp
      · exact hw.fresh p' h e he

/-- Whatever statement a request in flight executes, the others are not disturbed. -/
theorem Safe.effect (hw : L.Safe post w) {q : Q} {k : Except X (R q) → Script R X (Err r) (Res r)}
    (hp : w.procs p = some ⟨r, some (.call q k)⟩) {x : Except X (R q)}
    (hx : G.Effect S p r q w.shared x s') : L.Safe post (w.resume p s' ⟨r, some (k x)⟩) := by
  obtain ⟨hpre, hk⟩ := hw.code p r _ hp w.shared (.refl hw.inv)
  obtain ⟨hs', hrely⟩ := L.sound hw.inv hpre hx
  refine hw.resume hs' ⟨[_], hx.log_eq, by simp⟩ hrely fun y hy => ?_
  cases hy
  exact hk x s' hx hs'

variable {script : (r : Req) → Script R X (Err r) (Res r)}

/-- One action keeps `Safe`, if every request that may arrive meets its specification. -/
theorem Safe.act (hw : L.Safe post w)
    (hspec : ∀ p r s, G.spawns r → L.inv s → (∀ e ∈ s.log, e.pid ≠ p) →
      L.wp p r (script r) (post p r) s)
    {a : Action Req X ι η} (ha : G.Permits w a) (h : w.act S script a = some w') :
    L.Safe post w' := by
  cases a with
  | spawn p r =>
    simp only [World.act] at h
    split at h
    · next hp =>
      cases h
      refine hw.resume hw.inv ⟨[], rfl, by simp⟩ (fun p' _ => L.rely_refl p' _) fun x hx => ?_
      cases hx
      exact hspec p r w.shared ha hw.inv (hw.fresh p hp)
    · cases h
  | step p c =>
    simp only [World.act] at h
    split at h
    · next r q k hp =>
      obtain ⟨⟨db, x⟩, hrun, rfl⟩ := Option.map_eq_some_iff.mp h
      exact hw.effect hp (.run (ha r q (by simp [World.next, hp])) hrun)
    · cases h
  | fail p x =>
    simp only [World.act] at h
    split at h
    · next r q k hp =>
      cases h
      exact hw.effect hp (.fail (ha r q (by simp [World.next, hp])))
    · cases h
  | stop p =>
    simp only [World.act] at h
    split at h
    · next hp =>
      cases h
      obtain ⟨hs', hrely⟩ := L.stop_sound (p := p) ha hw.inv
      exact hw.resume hs' ⟨[], rfl, by simp⟩ hrely (by simp)
    · cases h
  | pass e =>
    simp only [World.act, Option.some.injEq] at h
    subst h
    obtain ⟨hs', hrely⟩ := L.pass_sound (e := e) hw.inv
    exact ⟨hs', fun p r x hp => wp_env (hw.code p r x hp) ⟨hs', .refl p _, hrely p⟩, hw.fresh⟩

/-- **Adequacy.** In every run of the regime the invariant holds and every request in flight keeps
to its preconditions. -/
theorem safe_of_reaches
    (hspec : ∀ p r s, G.spawns r → L.inv s → (∀ e ∈ s.log, e.pid ≠ p) →
      L.wp p r (script r) (post p r) s)
    (hw : L.Safe post w) (h : G.Reaches S script w w') : L.Safe post w' := by
  induction h with
  | refl => exact hw
  | tail _ hstep ih =>
    obtain ⟨a, ha, hact⟩ := hstep
    exact ih.act hspec ha hact

/-- What a request that has ended well left behind still holds. -/
theorem Safe.of_returned (hw : L.Safe post w) {a : Res r} (h : w.Returned p r a) :
    post p r (.ok a) w.shared :=
  hw.code p r _ h w.shared (.refl hw.inv)

/-- A property that every statement keeps as long as its precondition holds is an invariant. -/
theorem inv_of_reaches {I : Shared R X σ Req → Prop}
    (hspec : ∀ p r s, G.spawns r → L.inv s → (∀ e ∈ s.log, e.pid ≠ p) →
      L.wp p r (script r) (post p r) s)
    (hw : L.Safe post w) (hI : I w.shared)
    (heffect : ∀ {p r q s x s'}, L.inv s → L.pre p r q s → I s → G.Effect S p r q s x s' → I s')
    (hstop : ∀ {p s}, G.stops → I s → I { s with db := S.abort p s.db })
    (hpass : ∀ {e s}, I s → I { s with db := S.pass e s.db })
    (h : G.Reaches S script w w') : I w'.shared := by
  induction h with
  | refl => exact hI
  | @tail w₁ w₂ hreach hstep ih =>
    have hw₁ : L.Safe post w₁ := safe_of_reaches hspec hw hreach
    have hpre : ∀ {p r q k}, w₁.procs p = some ⟨r, some (.call q k)⟩ → L.pre p r q w₁.shared :=
      fun hp => (hw₁.code _ _ _ hp w₁.shared (.refl hw₁.inv)).1
    obtain ⟨a, ha, hact⟩ := hstep
    cases a with
    | spawn p r =>
      simp only [World.act] at hact
      split at hact
      · cases hact
        exact ih
      · cases hact
    | step p c =>
      simp only [World.act] at hact
      split at hact
      · next r q k hp =>
        obtain ⟨⟨db, x⟩, hrun, rfl⟩ := Option.map_eq_some_iff.mp hact
        exact heffect hw₁.inv (hpre hp) ih (.run (ha r q (by simp [World.next, hp])) hrun)
      · cases hact
    | fail p x =>
      simp only [World.act] at hact
      split at hact
      · next r q k hp =>
        cases hact
        exact heffect hw₁.inv (hpre hp) ih (.fail (ha r q (by simp [World.next, hp])))
      · cases hact
    | stop p =>
      simp only [World.act] at hact
      split at hact
      · cases hact
        exact hstop ha ih
      · cases hact
    | pass e =>
      cases hact
      exact hpass ih

/-- **Preconditions hold**: whatever was executed met its precondition then. -/
theorem throughout_of_reaches {db : σ}
    (hspec : ∀ p r s, G.spawns r → L.inv s → (∀ e ∈ s.log, e.pid ≠ p) →
      L.wp p r (script r) (post p r) s)
    (hw : L.Safe post (World.start db : World R X σ Err Res))
    (h : G.Reaches S script (World.start db) w) :
    Throughout (fun e earlier => L.pre e.pid e.req e.stmt ⟨e.before, earlier⟩) w.shared.log := by
  refine inv_of_reaches (I := fun s : Shared R X σ Req => Throughout
    (fun (e : Event R X σ Req) earlier => L.pre e.pid e.req e.stmt ⟨e.before, earlier⟩) s.log)
    hspec hw throughout_nil (fun _ hpre hs hx => ?_) (fun _ hs => hs) (fun hs => hs) h
  rw [hx.log_eq]
  exact ⟨hpre, hs⟩

/-! ### Both of two logics -/

/-- The conjunction of two logics. -/
def prod (L L' : Logic G S) : Logic G S where
  inv s := L.inv s ∧ L'.inv s
  rely p s s' := L.rely p s s' ∧ L'.rely p s s'
  pre p r q s := L.pre p r q s ∧ L'.pre p r q s
  rely_refl p s := ⟨L.rely_refl p s, L'.rely_refl p s⟩
  rely_trans h h' := ⟨L.rely_trans h.1 h'.1, L'.rely_trans h.2 h'.2⟩
  sound hs hpre h := by
    obtain ⟨hs₁, hrely₁⟩ := L.sound hs.1 hpre.1 h
    obtain ⟨hs₂, hrely₂⟩ := L'.sound hs.2 hpre.2 h
    exact ⟨⟨hs₁, hs₂⟩, fun p hp => ⟨hrely₁ p hp, hrely₂ p hp⟩⟩
  stop_sound h hs := by
    obtain ⟨hs₁, hrely₁⟩ := L.stop_sound h hs.1
    obtain ⟨hs₂, hrely₂⟩ := L'.stop_sound h hs.2
    exact ⟨⟨hs₁, hs₂⟩, fun p hp => ⟨hrely₁ p hp, hrely₂ p hp⟩⟩
  pass_sound hs := by
    obtain ⟨hs₁, hrely₁⟩ := L.pass_sound hs.1
    obtain ⟨hs₂, hrely₂⟩ := L'.pass_sound hs.2
    exact ⟨⟨hs₁, hs₂⟩, fun p => ⟨hrely₁ p, hrely₂ p⟩⟩

/-- A script that is right in both logics is right in their conjunction. -/
theorem wp_prod {L' : Logic G S} {x : Script R X ε α} (h : L.wp p r x Φ s) (h' : L'.wp p r x Ψ s) :
    (L.prod L').wp p r x (fun y s' => Φ y s' ∧ Ψ y s') s := by
  have hleft : ∀ {s s'}, (L.prod L').Env p s s' → L.Env p s s' :=
    fun he => ⟨he.inv.1, he.others, he.rely.1⟩
  have hright : ∀ {s s'}, (L.prod L').Env p s s' → L'.Env p s s' :=
    fun he => ⟨he.inv.2, he.others, he.rely.2⟩
  induction x generalizing s with
  | ret a => exact fun s' he => ⟨h s' (hleft he), h' s' (hright he)⟩
  | throw e => exact fun s' he => ⟨h s' (hleft he), h' s' (hright he)⟩
  | call q k ih =>
    intro s' he
    obtain ⟨hpre, hk⟩ := h s' (hleft he)
    obtain ⟨hpre', hk'⟩ := h' s' (hright he)
    exact ⟨⟨hpre, hpre'⟩, fun x s'' hx hs'' => ih x (hk x s'' hx hs''.1) (hk' x s'' hx hs''.2)⟩

end Logic

/-! ### Scripts that need no look at the state -/

/-- Code whose statements may be issued in any state that satisfies `K`, and keep it. -/
theorem Logic.wp_of_does {G : Regime R X σ Req} {S : Store R X σ ι η} {L : Logic G S} {p : ℕ}
    {r : Req} {ε α : Type} (P : Q → Prop) (A : (q : Q) → Except X (R q) → Prop)
    (K : Shared R X σ Req → Prop) (Φ : Except ε α → Prop)
    {Ψ : Except ε α → Shared R X σ Req → Prop}
    (henv : ∀ {s s'}, K s → L.Env p s s' → K s')
    (hpre : ∀ {q s}, P q → L.inv s → K s → L.pre p r q s)
    (hstep : ∀ {q s x s'}, P q → L.inv s → K s → G.Effect S p r q s x s' → L.inv s' →
      A q x ∧ K s')
    (hpost : ∀ {y s}, Φ y → K s → Ψ y s)
    {x : Script R X ε α} (hx : x.Does P A Φ) {s : Shared R X σ Req} (hs : K s) :
    L.wp p r x Ψ s := by
  induction x generalizing s with
  | ret a => exact fun s' he => hpost hx (henv hs he)
  | throw e => exact fun s' he => hpost hx (henv hs he)
  | call q k ih =>
    intro s' he
    refine ⟨hpre hx.1 he.inv (henv hs he), fun y s'' hy hs'' => ?_⟩
    obtain ⟨hA, hK⟩ := hstep hx.1 he.inv (henv hs he) hy hs''
    exact ih y (hx.2 y hA) hK

/-- Code that may issue any statement in any state needs no argument. -/
theorem Logic.wp_of_pre {G : Regime R X σ Req} {S : Store R X σ ι η} {L : Logic G S} {p : ℕ}
    {r : Req} {ε α : Type} (hpre : ∀ {q s}, L.inv s → L.pre p r q s)
    (x : Script R X ε α) (s : Shared R X σ Req) : L.wp p r x (fun _ _ => True) s := by
  induction x generalizing s with
  | ret a => exact fun _ _ => trivial
  | throw e => exact fun _ _ => trivial
  | call q k ih => exact fun s' he => ⟨hpre he.inv, fun y s'' _ _ => ih y s''⟩

/-- What is known of every statement of a script holds in any logic. -/
theorem Logic.wp_of_ofPre {G : Regime R X σ Req} {S : Store R X σ ι η} {L : Logic G S} {p : ℕ}
    {r : Req} {ε α : Type} {pre : ℕ → Req → Q → Shared R X σ Req → Prop} {x : Script R X ε α}
    {Φ : Except ε α → Shared R X σ Req → Prop} {s : Shared R X σ Req}
    (h : (Logic.ofPre pre : Logic G S).wp p r x Φ s)
    (hpre : ∀ q s', L.inv s' → pre p r q s' → L.pre p r q s') : L.wp p r x Φ s := by
  induction x generalizing s with
  | ret a => exact fun s' he => h s' ⟨trivial, he.others, trivial⟩
  | throw e => exact fun s' he => h s' ⟨trivial, he.others, trivial⟩
  | call q k ih =>
    intro s' he
    obtain ⟨hq, hk⟩ := h s' ⟨trivial, he.others, trivial⟩
    exact ⟨hpre q s' he.inv hq, fun y s'' hy _ => ih y (hk y s'' hy trivial)⟩

/-- The logic in which the requests keep to their footprints. -/
def Logic.ofIssues (G : Regime R X σ Req) (S : Store R X σ ι η) (P : Req → Q → Prop) :
    Logic G S where
  inv s := ∀ e ∈ s.log, P e.req e.stmt
  rely _ _ _ := True
  pre _ r q _ := P r q
  rely_refl _ _ := trivial
  rely_trans _ _ := trivial
  sound {p r q s x s'} hs hpre h := by
    refine ⟨fun e he => ?_, fun _ _ => trivial⟩
    rw [h.log_eq] at he
    rcases List.mem_cons.mp he with rfl | he
    · exact hpre
    · exact hs e he
  stop_sound _ hs := ⟨hs, fun _ _ => trivial⟩
  pass_sound hs := ⟨hs, fun _ => trivial⟩

/-- **Every statement of a run comes from the code of its request.** -/
theorem Regime.Reaches.of_issues {G : Regime R X σ Req} {S : Store R X σ ι η}
    {script : (r : Req) → Script R X (Err r) (Res r)} {P : Req → Q → Prop} {db : σ}
    {w : World R X σ Err Res} (hscript : ∀ r, G.spawns r → (script r).Issues (P r))
    (h : G.Reaches S script (World.start db) w) : ∀ e ∈ w.shared.log, P e.req e.stmt := by
  have hspec : ∀ p r s, G.spawns r → (Logic.ofIssues G S P).inv s → (∀ e ∈ s.log, e.pid ≠ p) →
      (Logic.ofIssues G S P).wp p r (script r) (fun _ _ => True) s :=
    fun p r s hr _ _ => Logic.wp_of_does (P r) (fun _ _ => True) (fun _ => True) (fun _ => True)
      (fun _ _ => trivial) (fun hq _ _ => hq) (fun _ _ _ _ _ => ⟨trivial, trivial⟩)
      (fun _ _ => trivial) (hscript r hr).does trivial
  have hstart : (Logic.ofIssues G S P).Safe (fun _ _ _ _ => True)
      (World.start db : World R X σ Err Res) := .start fun e he => absurd he List.not_mem_nil
  exact (Logic.safe_of_reaches hspec hstart h).inv

end Interleave
