import SubmitSnap.Interleave.Script

/-!
# Footprints: what a script does, whatever the state

Much of what there is to say about a request does not depend on the database it runs against: which
statements it may issue, and how their arguments come from earlier answers. `Does P A Φ` says it:
as long as every answer is one that `A` allows, every statement satisfies `P`, and the outcome
satisfies `Φ`. `Issues P` is the special case that expects nothing and promises nothing.

## What it is good for

Most statements that a request issues have nothing to do with the table a result is about.
Following them through the weakest precondition one by one would drown the argument. `Issues P`
says once, for a whole function, that all it does is of a harmless kind, and `Logic.wp_of_does`
turns that into a weakest precondition in any logic that has nothing to say about the kind. `Does`
goes one step further and follows the answers: what is written by a later statement came out of an
earlier one.

## Main definitions

* `Script.Does`, `Script.Issues`

## Main results

* `Script.does_bind`, `Script.does_query` and their like — one equivalence for each way of building
  a script, so that unfolding a script and rewriting computes its footprint.
* `Script.Does.bind`, `Script.Issues.bind` — sequencing.
-/

namespace Interleave

variable {Q : Type} {R : Q → Type} {X : Type}

namespace Script

variable {ε ε' α β : Type}

/-- As long as every answer is one that `A` allows, the script issues only statements that satisfy
`P`, and ends as `Φ` says. -/
def Does (P : Q → Prop) (A : (q : Q) → Except X (R q) → Prop) :
    Script R X ε α → (Except ε α → Prop) → Prop
  | ret a, Φ => Φ (.ok a)
  | throw e, Φ => Φ (.error e)
  | call q k, Φ => P q ∧ ∀ x, A q x → (k x).Does P A Φ

variable {P : Q → Prop} {A : (q : Q) → Except X (R q) → Prop}

@[simp] theorem does_ret {a : α} {Φ : Except ε α → Prop} :
    (ret a : Script R X ε α).Does P A Φ ↔ Φ (.ok a) := Iff.rfl

@[simp] theorem does_throw {e : ε} {Φ : Except ε α → Prop} :
    (throw e : Script R X ε α).Does P A Φ ↔ Φ (.error e) := Iff.rfl

theorem Does.mono {x : Script R X ε α} {Φ Ψ : Except ε α → Prop} (h : x.Does P A Ψ)
    (hΦ : ∀ y, Ψ y → Φ y) : x.Does P A Φ := by
  induction x with
  | ret a => exact hΦ _ h
  | throw e => exact hΦ _ h
  | call q k ih => exact ⟨h.1, fun y hy => ih y (h.2 y hy)⟩

theorem does_bind {x : Script R X ε β} {f : β → Script R X ε α} {Φ : Except ε α → Prop} :
    (x >>= f).Does P A Φ ↔
      x.Does P A fun y => match y with
        | .ok b => (f b).Does P A Φ
        | .error e => Φ (.error e) := by
  induction x with
  | ret b => exact Iff.rfl
  | throw e => exact Iff.rfl
  | call q k ih =>
    rw [call_bind]
    exact and_congr_right fun _ => forall_congr' fun y => imp_congr_right fun _ => ih y

@[simp] theorem does_query [Raises X ε] {q : Q} {Φ : Except ε (R q) → Prop} :
    (query q : Script R X ε (R q)).Does P A Φ ↔ P q ∧ (∀ a, A q (.ok a) → Φ (.ok a)) ∧
      ∀ e, A q (.error e) → Φ (.error (Raises.raise e)) := by
  refine and_congr_right fun _ => ⟨fun h => ⟨fun a ha => h _ ha, fun e he => h _ he⟩, ?_⟩
  rintro ⟨hok, herr⟩ (e | a) hx
  · exact herr e hx
  · exact hok a hx

@[simp] theorem does_attempt {q : Q} {Φ : Except ε (Except X (R q)) → Prop} :
    (attempt q : Script R X ε (Except X (R q))).Does P A Φ ↔ P q ∧ ∀ x, A q x → Φ (.ok x) :=
  Iff.rfl

@[simp] theorem does_mapError {f : ε' → ε} {x : Script R X ε' α} {Φ : Except ε α → Prop} :
    (x.mapError f).Does P A Φ ↔ x.Does P A fun y => Φ (y.mapError f) := by
  induction x with
  | ret a => exact Iff.rfl
  | throw e => exact Iff.rfl
  | call q k ih =>
    exact and_congr_right fun _ => forall_congr' fun y => imp_congr_right fun _ => ih y

@[simp] theorem does_result {x : Script R X ε' α} {Φ : Except ε (Except ε' α) → Prop} :
    (x.result : Script R X ε (Except ε' α)).Does P A Φ ↔ x.Does P A fun y => Φ (.ok y) := by
  induction x with
  | ret a => exact Iff.rfl
  | throw e => exact Iff.rfl
  | call q k ih =>
    exact and_congr_right fun _ => forall_congr' fun y => imp_congr_right fun _ => ih y

@[simp] theorem does_when {c : Bool} {x : Script R X ε Unit} {Φ : Except ε Unit → Prop} :
    (when c x).Does P A Φ ↔ (c = true → x.Does P A Φ) ∧ (c = false → Φ (.ok ())) := by
  cases c <;> simp [when]

@[simp] theorem does_ensuring {q : Q} {x : Script R X ε α} {Φ : Except ε α → Prop} :
    (x.ensuring q).Does P A Φ ↔ x.Does P A fun y => P q ∧ ∀ a, A q a → Φ y := by
  induction x with
  | ret a => exact Iff.rfl
  | throw e => exact Iff.rfl
  | call q' k ih =>
    exact and_congr_right fun _ => forall_congr' fun y => imp_congr_right fun _ => ih y

theorem Does.bind {x : Script R X ε β} {f : β → Script R X ε α} {Ψ : Except ε β → Prop}
    {Φ : Except ε α → Prop} (hx : x.Does P A Ψ) (hok : ∀ b, Ψ (.ok b) → (f b).Does P A Φ)
    (herr : ∀ e, Ψ (.error e) → Φ (.error e)) : (x >>= f).Does P A Φ := by
  refine does_bind.mpr (hx.mono ?_)
  rintro (e | b) hy
  · exact herr e hy
  · exact hok b hy

theorem Does.mapError {f : ε' → ε} {x : Script R X ε' α} (hx : x.Does P A fun _ => True) :
    (x.mapError f).Does P A fun _ => True :=
  does_mapError.mpr hx

/-- Every statement the script may issue satisfies `P`, whatever the answers. -/
def Issues (P : Q → Prop) : Script R X ε α → Prop
  | ret _ => True
  | throw _ => True
  | call q k => P q ∧ ∀ x, (k x).Issues P

theorem Issues.does {x : Script R X ε α} (h : x.Issues P) : x.Does P A fun _ => True := by
  induction x with
  | ret a => trivial
  | throw e => trivial
  | call q k ih => exact ⟨h.1, fun y _ => ih y (h.2 y)⟩

/-- What is said for every answer there can be needs no assumption about answers. -/
theorem Does.issues {Φ : Except ε α → Prop} {x : Script R X ε α}
    (h : x.Does P (fun _ _ => True) Φ) : x.Issues P := by
  induction x with
  | ret a => trivial
  | throw e => trivial
  | call q k ih => exact ⟨h.1, fun y => ih y (h.2 y trivial)⟩

theorem issues_of_forall (h : ∀ q, P q) (x : Script R X ε α) : x.Issues P := by
  induction x with
  | ret a => trivial
  | throw e => trivial
  | call q k ih => exact ⟨h q, ih⟩

theorem Issues.mono {P' : Q → Prop} {x : Script R X ε α} (h : x.Issues P)
    (hP : ∀ q, P q → P' q) : x.Issues P' := by
  induction x with
  | ret a => trivial
  | throw e => trivial
  | call q k ih => exact ⟨hP q h.1, fun y => ih y (h.2 y)⟩

theorem issues_ret {a : α} : (ret a : Script R X ε α).Issues P := trivial

theorem issues_throw {e : ε} : (throw e : Script R X ε α).Issues P := trivial

theorem issues_query [Raises X ε] {q : Q} (h : P q) :
    (query q : Script R X ε (R q)).Issues P :=
  ⟨h, fun x => by cases x <;> trivial⟩

theorem issues_attempt {q : Q} (h : P q) :
    (attempt q : Script R X ε (Except X (R q))).Issues P :=
  ⟨h, fun _ => trivial⟩

theorem issues_unwrap {e : ε} (x : Option α) : (unwrap e x : Script R X ε α).Issues P := by
  cases x <;> trivial

theorem Issues.bind {x : Script R X ε β} {f : β → Script R X ε α} (hx : x.Issues P)
    (hf : ∀ b, (f b).Issues P) : (x >>= f).Issues P := by
  induction x with
  | ret b => exact hf b
  | throw e => trivial
  | call q k ih => exact ⟨hx.1, fun y => ih y (hx.2 y)⟩

theorem Issues.when {c : Bool} {x : Script R X ε Unit} (hx : c = true → x.Issues P) :
    (when c x).Issues P := by
  cases c with
  | true => exact hx rfl
  | false => trivial

theorem Issues.mapError {f : ε' → ε} {x : Script R X ε' α} (hx : x.Issues P) :
    (x.mapError f).Issues P := by
  induction x with
  | ret a => trivial
  | throw e => trivial
  | call q k ih => exact ⟨hx.1, fun y => ih y (hx.2 y)⟩

theorem Issues.result {x : Script R X ε' α} (hx : x.Issues P) :
    (x.result : Script R X ε (Except ε' α)).Issues P := by
  induction x with
  | ret a => trivial
  | throw e => trivial
  | call q k ih => exact ⟨hx.1, fun y => ih y (hx.2 y)⟩

theorem Issues.ensuring {q : Q} {x : Script R X ε α} (hx : x.Issues P) (hq : P q) :
    (x.ensuring q).Issues P := by
  induction x with
  | ret a => exact ⟨hq, fun _ => trivial⟩
  | throw e => exact ⟨hq, fun _ => trivial⟩
  | call q' k ih => exact ⟨hx.1, fun y => ih y (hx.2 y)⟩

theorem Issues.forEach {f : β → Script R X ε Unit} (hf : ∀ b, (f b).Issues P) :
    ∀ bs, (forEach f bs).Issues P
  | [] => trivial
  | b :: bs => (hf b).bind fun _ => Issues.forEach hf bs

end Script

end Interleave
