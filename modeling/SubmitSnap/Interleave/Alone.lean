import SubmitSnap.Interleave.World
import SubmitSnap.Interleave.Footprint

/-!
# A script on its own

What a script leads to when nobody else runs meanwhile: a function of the state it starts in. It is
the right notion for questions about one request, such as whether it succeeds, whether two
databases that look alike to it are treated alike, or what it leaves behind when it fails half-way.

## Why one request is worth a look of its own

A script by itself is a function, so questions that no trace can answer become equations: whether
a request succeeds, whether two databases that look alike to it are treated alike, what is left
when its third statement fails. `alone` is that function. The choices a statement leaves open, an
identifier or the keys it draws, are an argument, one for each statement, so that two runs can be
compared choice by choice.

`faulty` is the same with a fate for every statement. Since a fate says exactly which statement
fails or is never reached, a claim about all lists of fates is a claim about every way in which
one request can come to grief. That both are runs of a world and not a second semantics is
`reaches_alone` and `reaches_faulty`.

## Main definitions

* `Store.alone` — run a script to its end.
* `Store.faulty` — run it with the given fates of its statements.

## Main results

* `Store.alone_bind`, `Store.alone_query_bind` — running a script piece by piece.
* `Store.of_faulty_query_bind` — the ways a statement can go.
* `Regime.reaches_alone`, `Regime.reaches_faulty` — what a script does on its own is a run of the
  world it is in.
-/

namespace Interleave

variable {Q : Type} {R : Q → Type} {X σ ι η Req : Type} {Err Res : Req → Type}

/-- The script that has ended with `y`. -/
def Script.ended {ε α : Type} : Except ε α → Script R X ε α
  | .ok a => .ret a
  | .error e => .throw e

/-- What becomes of a statement that is executed: it takes effect, or it fails without any. -/
inductive Fate (X ι : Type) where
  | run (c : ι)
  | fail (x : X)

/-- How many statements take effect before one does not. -/
def Fate.landed {X ι : Type} : List (Fate X ι) → ℕ
  | .run _ :: fates => landed fates + 1
  | _ => 0

@[simp] theorem Fate.landed_nil {X ι : Type} : landed ([] : List (Fate X ι)) = 0 := rfl

@[simp] theorem Fate.landed_fail {X ι : Type} (x : X) (fates : List (Fate X ι)) :
    landed (.fail x :: fates) = 0 := rfl

@[simp] theorem Fate.landed_run {X ι : Type} (c : ι) (fates : List (Fate X ι)) :
    landed (.run c :: fates) = landed fates + 1 := rfl

namespace Store

variable (S : Store R X σ ι η) (p : ℕ) {ε ε' α β : Type}

/-- How a script ends when nobody else runs, in which state, and which choices are left; `none` if a
statement has to wait. The choices decide what the statements leave open, one for each. -/
def alone : Script R X ε α → (ℕ → ι) → σ → Option (Except ε α × σ × (ℕ → ι))
  | .ret a, cs, s => some (.ok a, s, cs)
  | .throw e, cs, s => some (.error e, s, cs)
  | .call q k, cs, s =>
    (S.run p q (cs 0) s).bind fun (s', x) => alone (k x) (fun n => cs (n + 1)) s'

variable {S p} {cs : ℕ → ι} {s : σ}

@[simp] theorem alone_ret (a : α) :
    S.alone p (.ret a : Script R X ε α) cs s = some (.ok a, s, cs) := rfl

@[simp] theorem alone_throw (e : ε) :
    S.alone p (.throw e : Script R X ε α) cs s = some (.error e, s, cs) := rfl

theorem alone_bind (x : Script R X ε β) (f : β → Script R X ε α) :
    S.alone p (x >>= f) cs s = (S.alone p x cs s).bind fun (y, s', cs') => match y with
      | .ok b => S.alone p (f b) cs' s'
      | .error e => some (.error e, s', cs') := by
  induction x generalizing cs s with
  | ret b => rfl
  | throw e => rfl
  | call q k ih =>
    rw [Script.call_bind, alone, alone, Option.bind_assoc]
    refine Option.bind_congr fun (s', x) _ => ?_
    exact ih x

/-- A value that is there, and what follows. -/
theorem alone_unwrap_bind {e : ε} {x : Option β} {f : β → Script R X ε α} {b : β}
    (h : x = some b) : S.alone p (Script.unwrap e x >>= f) cs s = S.alone p (f b) cs s := by
  rw [h]
  rfl

/-- A statement that is answered, and what follows. -/
theorem alone_query_bind [Raises X ε] {q : Q} {f : R q → Script R X ε α} {a : R q} {s' : σ}
    (h : S.run p q (cs 0) s = some (s', .ok a)) :
    S.alone p (Script.query q >>= f) cs s = S.alone p (f a) (fun n => cs (n + 1)) s' := by
  change (S.run p q (cs 0) s).bind _ = _
  rw [h]
  rfl

/-- The ways a statement can go when nobody else runs. -/
theorem of_alone_query_bind [Raises X ε] {q : Q} {f : R q → Script R X ε α} {y : Except ε α}
    {s' : σ} {cs' : ℕ → ι} (h : S.alone p (Script.query q >>= f) cs s = some (y, s', cs')) :
    (∃ a s₁, S.run p q (cs 0) s = some (s₁, .ok a) ∧
      S.alone p (f a) (fun n => cs (n + 1)) s₁ = some (y, s', cs')) ∨
    ∃ x, S.run p q (cs 0) s = some (s', .error x) ∧ y = .error (Raises.raise x) := by
  obtain ⟨⟨s₁, x⟩, hrun, hrest⟩ := Option.bind_eq_some_iff.mp h
  cases x with
  | ok a => exact .inl ⟨a, s₁, hrun, hrest⟩
  | error x =>
    cases hrest
    exact .inr ⟨x, hrun, rfl⟩

/-- A statement that is answered. -/
theorem of_alone_query [Raises X ε] {q : Q} {a : R q} {s' : σ} {cs' : ℕ → ι}
    (h : S.alone p (Script.query q : Script R X ε (R q)) cs s = some (.ok a, s', cs')) :
    S.run p q (cs 0) s = some (s', .ok a) := by
  obtain ⟨⟨s₁, x⟩, hrun, hrest⟩ := Option.bind_eq_some_iff.mp h
  cases x with
  | ok b =>
    cases hrest
    exact hrun
  | error x => cases hrest

/-- A script that has ended well has run to the end piece by piece. -/
theorem of_alone_bind {x : Script R X ε β} {f : β → Script R X ε α} {a : α} {s' : σ}
    {cs' : ℕ → ι} (h : S.alone p (x >>= f) cs s = some (.ok a, s', cs')) :
    ∃ b s₁ cs₁, S.alone p x cs s = some (.ok b, s₁, cs₁) ∧
      S.alone p (f b) cs₁ s₁ = some (.ok a, s', cs') := by
  rw [alone_bind] at h
  obtain ⟨⟨y, s₁, cs₁⟩, hx, hrest⟩ := Option.bind_eq_some_iff.mp h
  cases y with
  | ok b => exact ⟨b, s₁, cs₁, hx, hrest⟩
  | error e => cases hrest

/-- What every statement keeps that a script may issue, the script keeps. -/
theorem inv_of_alone {P : Q → Prop} {I : σ → Prop} {x : Script R X ε α} (hx : x.Issues P)
    (hP : ∀ {q c s s' y}, P q → S.run p q c s = some (s', y) → I s → I s')
    {y : Except ε α} {s' : σ} {cs' : ℕ → ι} (h : S.alone p x cs s = some (y, s', cs')) (hs : I s) :
    I s' := by
  induction x generalizing cs s with
  | ret a | throw e =>
    cases h
    exact hs
  | call q k ih =>
    obtain ⟨⟨s₁, y₁⟩, hrun, hrest⟩ := Option.bind_eq_some_iff.mp h
    exact ih y₁ (hx.2 y₁) hrest (hP hx.1 hrun hs)

/-- Scripts that wait for the same statements: after the same first one, whenever the rests do. -/
theorem isSome_alone_query_bind [Raises X ε] {q : Q} {f : R q → Script R X ε α}
    {g : R q → Script R X ε β}
    (h : ∀ a s', S.run p q (cs 0) s = some (s', .ok a) →
      (S.alone p (f a) (fun n => cs (n + 1)) s').isSome =
        (S.alone p (g a) (fun n => cs (n + 1)) s').isSome) :
    (S.alone p (Script.query q >>= f) cs s).isSome =
      (S.alone p (Script.query q >>= g) cs s).isSome := by
  change ((S.run p q (cs 0) s).bind _).isSome = ((S.run p q (cs 0) s).bind _).isSome
  cases hrun : S.run p q (cs 0) s with
  | none => rfl
  | some out =>
    obtain ⟨s', x⟩ := out
    cases x with
    | ok a => exact h a s' hrun
    | error x => rfl

theorem alone_mapError (f : ε → ε') (x : Script R X ε α) :
    S.alone p (x.mapError f) cs s =
      (S.alone p x cs s).map fun (y, rest) => (y.mapError f, rest) := by
  induction x generalizing cs s with
  | ret a => rfl
  | throw e => rfl
  | call q k ih =>
    rw [Script.mapError, alone, alone, Option.map_bind]
    refine Option.bind_congr fun (s', x) _ => ?_
    exact ih x

/-- Code that looks at the outcome of another piece. -/
theorem alone_result (x : Script R X ε' α) :
    S.alone p (x.result : Script R X ε (Except ε' α)) cs s =
      (S.alone p x cs s).map fun (y, rest) => (.ok y, rest) := by
  induction x generalizing cs s with
  | ret a => rfl
  | throw e => rfl
  | call q k ih =>
    rw [Script.result, alone, alone, Option.map_bind]
    refine Option.bind_congr fun (s', x) _ => ?_
    exact ih x

/-- What runs at the end of a script runs whatever the outcome, and does not change it. -/
theorem alone_ensuring {q : Q} (x : Script R X ε α) :
    S.alone p (x.ensuring q) cs s = (S.alone p x cs s).bind fun (y, s', cs') =>
      (S.run p q (cs' 0) s').map fun (s'', _) => (y, s'', fun n => cs' (n + 1)) := by
  induction x generalizing cs s with
  | ret a | throw e =>
    change (S.run p q (cs 0) s).bind _ = (S.run p q (cs 0) s).map _
    cases S.run p q (cs 0) s <;> rfl
  | call q' k ih =>
    rw [Script.ensuring, alone, alone, Option.bind_assoc]
    refine Option.bind_congr fun (s', x) _ => ?_
    exact ih x

variable (S p) in
/-- How a script ends when its statements meet these fates and nobody else runs, and in which state.
The process stops at the statement for which there is no fate left, and then has no end. -/
def faulty : Script R X ε α → List (Fate X ι) → σ → Option (Option (Except ε α) × σ)
  | .ret a, _, s => some (some (.ok a), s)
  | .throw e, _, s => some (some (.error e), s)
  | .call _ _, [], s => some (none, S.abort p s)
  | .call _ k, .fail x :: fates, s => faulty (k (.error x)) fates (S.abort p s)
  | .call q k, .run c :: fates, s => (S.run p q c s).bind fun (s', x) => faulty (k x) fates s'

/-- **The ways a statement can go**: its process stops before it, it fails, it is answered, or it
runs into an error. -/
theorem of_faulty_query_bind [Raises X ε] {q : Q} {f : R q → Script R X ε α}
    {fates : List (Fate X ι)} {y : Option (Except ε α)} {s' : σ}
    (h : S.faulty p (Script.query q >>= f) fates s = some (y, s')) :
    (fates = [] ∧ y = none ∧ s' = S.abort p s) ∨
    (∃ x rest, fates = .fail x :: rest ∧ y = some (.error (Raises.raise x)) ∧
      s' = S.abort p s) ∨
    (∃ c rest a s₁, fates = .run c :: rest ∧ S.run p q c s = some (s₁, .ok a) ∧
      S.faulty p (f a) rest s₁ = some (y, s')) ∨
    ∃ c rest x, fates = .run c :: rest ∧ S.run p q c s = some (s', .error x) ∧
      y = some (.error (Raises.raise x)) := by
  cases fates with
  | nil =>
    cases h
    exact .inl ⟨rfl, rfl, rfl⟩
  | cons fate rest =>
    cases fate with
    | fail x =>
      cases h
      exact .inr (.inl ⟨x, rest, rfl, rfl, rfl⟩)
    | run c =>
      obtain ⟨⟨s₁, x⟩, hrun, hrest⟩ := Option.bind_eq_some_iff.mp h
      cases x with
      | ok a => exact .inr (.inr (.inl ⟨c, rest, a, s₁, rfl, hrun, hrest⟩))
      | error x =>
        cases hrest
        exact .inr (.inr (.inr ⟨c, rest, x, rfl, hrun, rfl⟩))

end Store

/-- **On its own is a run**: of a world in which the script is in flight, if the regime lets it
execute its statements. -/
theorem Regime.reaches_alone {G : Regime R X σ Req} {S : Store R X σ ι η}
    {script : (r : Req) → Script R X (Err r) (Res r)} {p : ℕ} {r : Req}
    (hadmits : ∀ p r q s, G.admits p r q s) {x : Script R X (Err r) (Res r)} {cs cs' : ℕ → ι}
    {w : World R X σ Err Res} {y : Except (Err r) (Res r)} {db : σ}
    (hp : w.procs p = some ⟨r, some x⟩)
    (h : S.alone p x cs w.shared.db = some (y, db, cs')) :
    ∃ w', G.Reaches S script w w' ∧ w'.shared.db = db ∧
      w'.procs p = some ⟨r, some (Script.ended y)⟩ := by
  induction x generalizing cs w with
  | ret a =>
    cases h
    exact ⟨w, .refl, rfl, hp⟩
  | throw e =>
    cases h
    exact ⟨w, .refl, rfl, hp⟩
  | call q k ih =>
    rw [Store.alone, Option.bind_eq_some_iff] at h
    obtain ⟨⟨s', x⟩, hrun, hrest⟩ := h
    obtain ⟨w', hreach, hdb, hp'⟩ := ih x
      (w := w.resume p (w.shared.push p r q s' x) ⟨r, some (k x)⟩)
      (by simp [World.resume]) hrest
    refine ⟨w', .head ⟨.step p (cs 0), fun r q _ => hadmits p r q _, ?_⟩ hreach, hdb, hp'⟩
    simp only [World.act, hp, hrun, Option.map_some]

/-- So is what it does when its statements fail or its process stops. -/
theorem Regime.reaches_faulty {spawns : Req → Prop} {S : Store R X σ ι η}
    {script : (r : Req) → Script R X (Err r) (Res r)} {p : ℕ} {r : Req}
    {x : Script R X (Err r) (Res r)} {fates : List (Fate X ι)} {w : World R X σ Err Res}
    {y : Option (Except (Err r) (Res r))} {db : σ} (hp : w.procs p = some ⟨r, some x⟩)
    (h : S.faulty p x fates w.shared.db = some (y, db)) :
    ∃ w', (Regime.free spawns).Reaches S script w w' ∧ w'.shared.db = db ∧
      w'.procs p = some ⟨r, y.map Script.ended⟩ := by
  induction x generalizing fates w with
  | ret a =>
    cases h
    exact ⟨w, .refl, rfl, hp⟩
  | throw e =>
    cases h
    exact ⟨w, .refl, rfl, hp⟩
  | call q k ih =>
    cases fates with
    | nil =>
      cases h
      refine ⟨w.resume p { w.shared with db := S.abort p w.shared.db } ⟨r, none⟩,
        .single ⟨.stop p, trivial, ?_⟩, rfl, by simp [World.resume]⟩
      simp only [World.act, hp]
    | cons fate rest =>
      cases fate with
      | fail e =>
        obtain ⟨w', hreach, hdb, hp'⟩ := ih (.error e)
          (w := w.resume p (w.shared.push p r q (S.abort p w.shared.db) (.error e))
            ⟨r, some (k (.error e))⟩) (by simp [World.resume]) h
        refine ⟨w', .head ⟨.fail p e, fun _ _ _ => trivial, ?_⟩ hreach, hdb, hp'⟩
        simp only [World.act, hp]
      | run c =>
        obtain ⟨⟨s₁, y₁⟩, hrun, hrest⟩ := Option.bind_eq_some_iff.mp h
        obtain ⟨w', hreach, hdb, hp'⟩ := ih y₁
          (w := w.resume p (w.shared.push p r q s₁ y₁) ⟨r, some (k y₁)⟩)
          (by simp [World.resume]) hrest
        refine ⟨w', .head ⟨.step p c, fun _ _ _ => trivial, ?_⟩ hreach, hdb, hp'⟩
        simp only [World.act, hp, hrun, Option.map_some]

end Interleave
