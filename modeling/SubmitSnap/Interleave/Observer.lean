import SubmitSnap.Interleave.World

/-!
# Observers: code that only reads

A request that only reads need not be one of the processes of a world. What it answers depends on
what it finds each time it looks, and in between anything may happen to the state. An observer is
such code next to a run: each of its statements is answered in some state of the run, later ones in
later states, and changes nothing.

## The argument

Code that changes nothing could be put into the world as one more process, and its steps would
then be steps of the run. To leave it outside is a matter of convenience, and a harmless one: a
statement that leaves the database as it is takes no lock and writes no row, so the others cannot
tell whether it was there. What the observer knows at its end is a sequence of answers, each the
truth of some state of the run, the states in the order of its statements.

## Main definitions

* `Observes` — the code, started in one world of a run, ends so in a later one.

## Main results

* `observes_bind`, `observes_query_bind` — what an observer that ended has seen.
-/

namespace Interleave

variable {Q : Type} {R : Q → Type} {X σ ι η Req : Type} {Err Res : Req → Type} {ε ε' α β : Type}

/-- Next to a run from `w` to `w'`, the code ends with `y`. -/
inductive Observes (G : Regime R X σ Req) (S : Store R X σ ι η)
    (script : (r : Req) → Script R X (Err r) (Res r)) (p : ℕ) :
    Script R X ε α → World R X σ Err Res → Except ε α → World R X σ Err Res → Prop where
  | ret {a : α} {w w' : World R X σ Err Res} (h : G.Reaches S script w w') :
    Observes G S script p (.ret a) w (.ok a) w'
  | throw {e : ε} {w w' : World R X σ Err Res} (h : G.Reaches S script w w') :
    Observes G S script p (.throw e) w (.error e) w'
  /-- A statement is answered, and has changed nothing. -/
  | answer {q : Q} {k : Except X (R q) → Script R X ε α} {c : ι} {x : Except X (R q)}
    {y : Except ε α} {w w₁ w' : World R X σ Err Res} (h : G.Reaches S script w w₁)
    (hrun : S.run p q c w₁.shared.db = some (w₁.shared.db, x))
    (hk : Observes G S script p (k x) w₁ y w') : Observes G S script p (.call q k) w y w'
  /-- A statement fails. -/
  | fail {q : Q} {k : Except X (R q) → Script R X ε α} {e : X} {y : Except ε α}
    {w w₁ w' : World R X σ Err Res} (h : G.Reaches S script w w₁)
    (hk : Observes G S script p (k (.error e)) w₁ y w') : Observes G S script p (.call q k) w y w'

variable {G : Regime R X σ Req} {S : Store R X σ ι η}
  {script : (r : Req) → Script R X (Err r) (Res r)} {p : ℕ} {w w' : World R X σ Err Res}
  {x : Script R X ε α} {y : Except ε α}

theorem Observes.reaches (h : Observes G S script p x w y w') : G.Reaches S script w w' := by
  induction h with
  | ret h => exact h
  | throw h => exact h
  | answer h _ _ ih => exact h.trans ih
  | fail h _ ih => exact h.trans ih

/-- **Sequencing.** -/
theorem observes_bind {z : Script R X ε β} {f : β → Script R X ε α} {a : α}
    (h : Observes G S script p (z >>= f) w (.ok a) w') :
    ∃ b w₁, Observes G S script p z w (.ok b) w₁ ∧ Observes G S script p (f b) w₁ (.ok a) w' := by
  induction z generalizing w with
  | ret b => exact ⟨b, w, .ret .refl, h⟩
  | throw e =>
    rw [Script.throw_bind] at h
    cases h
  | call q k ih =>
    rw [Script.call_bind] at h
    cases h with
    | answer hw hrun hk =>
      obtain ⟨b, w₁, hz, hf⟩ := ih _ hk
      exact ⟨b, w₁, .answer hw hrun hz, hf⟩
    | fail hw hk =>
      obtain ⟨b, w₁, hz, hf⟩ := ih _ hk
      exact ⟨b, w₁, .fail hw hz, hf⟩

/-- One statement under `?`, and what follows. -/
theorem observes_query_bind [Raises X ε] {q : Q} {f : R q → Script R X ε α} {a : α}
    (h : Observes G S script p (Script.query q >>= f) w (.ok a) w') :
    ∃ b c w₁, G.Reaches S script w w₁ ∧
      S.run p q c w₁.shared.db = some (w₁.shared.db, .ok b) ∧
        Observes G S script p (f b) w₁ (.ok a) w' := by
  change Observes G S script p (.call q fun x => _) w (.ok a) w' at h
  cases h with
  | @answer _ _ c x _ _ w₁ _ hw hrun hk =>
    cases x with
    | error e => cases hk
    | ok b => exact ⟨b, c, w₁, hw, hrun, hk⟩
  | fail hw hk => cases hk

theorem observes_ret {a b : α}
    (h : Observes G S script p (.ret b : Script R X ε α) w (.ok a) w') : a = b := by
  cases h
  rfl

end Interleave
