import SubmitSnap.Interleave.Script

/-!
# Worlds: shared state, requests in flight, and what may happen next

A `Store` says what one statement does to the shared state; a `World` is a shared state, the trace
of the statements that have run, and the requests in flight, each with the script it still has to
run. A run is a sequence of `Action`s, in any order: a request arrives, a request executes its next
statement, a statement fails, a request's process stops, or something happens that no request does
(time passes).

A statement that would have to wait is one whose `run` is `none`: it takes no step now and may take
one later.

The trace is part of the state. It records each statement with the request it was made for, the
state it ran in and its reply, newest first; it is never read by the code, only by statements about
the code.

A `Regime` says which runs are meant: which requests arrive, which statements may take effect in
which state, and which faults occur. A condition under which code is correct is a regime.

## What one step is

A step is one statement, because one statement is what the store executes as a whole. Everything
finer is hidden by the store's own isolation, and everything coarser, a transaction or a request,
is code whose statements others may come between. What a transaction does hold together is written
by its `commit`, and the locks it takes on the way are part of the state.

A statement that fails has no effect, and takes the transaction around it along: `abort` is what
is left. A process may also stop between two statements, and then it is gone without running what
its code does at the end. Neither is an exception that the code could see coming, and results that
are to hold in spite of them are stated in a regime that permits them. Where a store can do what
it was asked and still lose its answer, that is not a failure in this sense: it takes two
statements, the one that does it and one for the reply.

`pass` is what happens without anybody asking for it. Time passes between any two statements, as
much as there is.

## Main definitions

* `World.act` — one action, computably.
* `Regime.Reaches` — the runs of a regime.
* `exec`, `play` — running a list of actions, to evaluate a concrete run.

## Main results

* `Regime.reaches_play` — what a list of actions leads to is reached by a run.
-/

namespace Interleave

/-- One entry of the trace: request `req`, running as `pid`, executed `stmt` in state `before` and
was answered `reply`. -/
structure Event {Q : Type} (R : Q → Type) (X σ Req : Type) where
  pid : ℕ
  req : Req
  before : σ
  stmt : Q
  reply : Except X (R stmt)

/-- The shared state: the stores, and the trace of what has been done to them. -/
structure Shared {Q : Type} (R : Q → Type) (X σ Req : Type) where
  db : σ
  log : List (Event R X σ Req)

/-- What statements do. `run p q c s` executes `q` for process `p` in state `s`, with `c` deciding
whatever `q` leaves open; `none` means that `q` has to wait. `abort p` is what is left of `p`'s
transaction when a statement of it fails or its process stops. `pass` is the environment. -/
structure Store {Q : Type} (R : Q → Type) (X σ ι η : Type) where
  run : ℕ → (q : Q) → ι → σ → Option (σ × Except X (R q))
  abort : ℕ → σ → σ
  pass : η → σ → σ

/-- A request and the code it still has to run; `none` once its process has been stopped. -/
structure Proc {Q : Type} (R : Q → Type) (X : Type) {Req : Type} (Err Res : Req → Type) where
  req : Req
  code : Option (Script R X (Err req) (Res req))

/-- The shared state together with the requests in flight. -/
structure World {Q : Type} (R : Q → Type) (X σ : Type) {Req : Type} (Err Res : Req → Type) where
  shared : Shared R X σ Req
  procs : ℕ → Option (Proc R X Err Res)

/-- What may happen next. -/
inductive Action (Req X ι η : Type) where
  /-- A request arrives and is given the name `p`. -/
  | spawn (p : ℕ) (r : Req)
  /-- `p` executes its next statement. -/
  | step (p : ℕ) (c : ι)
  /-- `p`'s next statement fails without effect. -/
  | fail (p : ℕ) (x : X)
  /-- `p`'s process stops. -/
  | stop (p : ℕ)
  /-- Something no request does. -/
  | pass (e : η)

variable {Q : Type} {R : Q → Type} {X σ ι η Req : Type} {Err Res : Req → Type}

/-- The state after a statement was answered. -/
def Shared.push (s : Shared R X σ Req) (p : ℕ) (r : Req) (q : Q) (db : σ) (x : Except X (R q)) :
    Shared R X σ Req where
  db := db
  log := ⟨p, r, s.db, q, x⟩ :: s.log

@[simp] theorem Shared.push_db (s : Shared R X σ Req) (p : ℕ) (r : Req) (q : Q) (db : σ)
    (x : Except X (R q)) : (s.push p r q db x).db = db := rfl

@[simp] theorem Shared.push_log (s : Shared R X σ Req) (p : ℕ) (r : Req) (q : Q) (db : σ)
    (x : Except X (R q)) : (s.push p r q db x).log = ⟨p, r, s.db, q, x⟩ :: s.log := rfl

namespace World

variable (S : Store R X σ ι η) (script : (r : Req) → Script R X (Err r) (Res r))

/-- The request `p` serves and the statement it is about to execute. -/
def next (w : World R X σ Err Res) (p : ℕ) : Option (Req × Q) :=
  match w.procs p with
  | some ⟨r, some (.call q _)⟩ => some (r, q)
  | _ => none

/-- `p` continues with `code`. -/
def resume (w : World R X σ Err Res) (p : ℕ) (s : Shared R X σ Req) (proc : Proc R X Err Res) :
    World R X σ Err Res :=
  ⟨s, Function.update w.procs p (some proc)⟩

/-- What an action does, if it can happen. -/
def act (w : World R X σ Err Res) : Action Req X ι η → Option (World R X σ Err Res)
  | .spawn p r =>
    match w.procs p with
    | none => some (w.resume p w.shared ⟨r, some (script r)⟩)
    | some _ => none
  | .step p c =>
    match w.procs p with
    | some ⟨r, some (.call q k)⟩ =>
      (S.run p q c w.shared.db).map fun (db, x) =>
        w.resume p (w.shared.push p r q db x) ⟨r, some (k x)⟩
    | _ => none
  | .fail p x =>
    match w.procs p with
    | some ⟨r, some (.call q k)⟩ =>
      some (w.resume p (w.shared.push p r q (S.abort p w.shared.db) (.error x))
        ⟨r, some (k (.error x))⟩)
    | _ => none
  | .stop p =>
    match w.procs p with
    | some ⟨r, some _⟩ =>
      some (w.resume p { w.shared with db := S.abort p w.shared.db } ⟨r, none⟩)
    | _ => none
  | .pass e => some { w with shared := { w.shared with db := S.pass e w.shared.db } }

/-- The world before any request has arrived. -/
def start (db : σ) : World R X σ Err Res := ⟨⟨db, []⟩, fun _ => none⟩

/-- `p` has ended well, with `a`. -/
def Returned (w : World R X σ Err Res) (p : ℕ) (r : Req) (a : Res r) : Prop :=
  w.procs p = some ⟨r, some (.ret a)⟩

/-- `p` is no request in flight: there is none of that name, or it has come to its end. -/
def endedAt (w : World R X σ Err Res) (p : ℕ) : Bool :=
  match w.procs p with
  | none | some ⟨_, some (.ret _)⟩ | some ⟨_, some (.throw _)⟩ => true
  | some ⟨_, some (.call _ _)⟩ | some ⟨_, none⟩ => false

/-- No request is in flight. -/
def Ended (w : World R X σ Err Res) : Prop := ∀ p, w.endedAt p = true

end World

/-- Which runs are meant. -/
structure Regime {Q : Type} (R : Q → Type) (X σ Req : Type) where
  /-- The requests that arrive. -/
  spawns : Req → Prop
  /-- When a statement may take effect. -/
  admits : ℕ → Req → Q → Shared R X σ Req → Prop
  /-- The statements that may fail. -/
  fails : Q → Prop
  /-- Whether processes stop. -/
  stops : Prop

namespace Regime

variable (G : Regime R X σ Req)

/-- Everything can happen, to the requests in `spawns`. -/
def free (spawns : Req → Prop) : Regime R X σ Req where
  spawns := spawns
  admits _ _ _ _ := True
  fails _ := True
  stops := True

/-- Everything can happen to the requests in `spawns`, but nothing fails and nobody stops. -/
def faultless (spawns : Req → Prop) : Regime R X σ Req :=
  { free spawns with fails := fun _ => False, stops := False }

/-- The regime, less the statements that are `bad` where they would take effect. -/
def avoiding (bad : ℕ → Req → Q → Shared R X σ Req → Prop) : Regime R X σ Req :=
  { G with admits := fun p r q s => G.admits p r q s ∧ ¬ bad p r q s }

/-- Whether an action belongs to the regime. -/
def Permits (w : World R X σ Err Res) : Action Req X ι η → Prop
  | .spawn _ r => G.spawns r
  | .step p _ => ∀ r q, w.next p = some (r, q) → G.admits p r q w.shared
  | .fail p _ => ∀ r q, w.next p = some (r, q) → G.fails q
  | .stop _ => G.stops
  | .pass _ => True

variable (S : Store R X σ ι η) (script : (r : Req) → Script R X (Err r) (Res r))

/-- One step of a run. -/
def Step (w w' : World R X σ Err Res) : Prop :=
  ∃ a, G.Permits w a ∧ w.act S script a = some w'

/-- The runs of the regime. -/
def Reaches : World R X σ Err Res → World R X σ Err Res → Prop :=
  Relation.ReflTransGen (G.Step S script)

variable {G S script} {w w' w'' : World R X σ Err Res}

theorem Reaches.refl : G.Reaches S script w w := Relation.ReflTransGen.refl

theorem Reaches.trans (h : G.Reaches S script w w') (h' : G.Reaches S script w' w'') :
    G.Reaches S script w w'' :=
  Relation.ReflTransGen.trans h h'

end Regime

/-! ### Concrete runs -/

/-- The regime's conditions can be evaluated. -/
class Regime.Test (G : Regime R X σ Req) where
  spawns : DecidablePred G.spawns
  admits : ∀ p r q s, Decidable (G.admits p r q s)
  fails : DecidablePred G.fails
  stops : Decidable G.stops

instance (spawns : Req → Prop) [DecidablePred spawns] :
    (Regime.free spawns : Regime R X σ Req).Test where
  spawns := inferInstanceAs (DecidablePred spawns)
  admits _ _ _ _ := inferInstanceAs (Decidable True)
  fails _ := inferInstanceAs (Decidable True)
  stops := inferInstanceAs (Decidable True)

instance (spawns : Req → Prop) [DecidablePred spawns] :
    (Regime.faultless spawns : Regime R X σ Req).Test where
  spawns := inferInstanceAs (DecidablePred spawns)
  admits _ _ _ _ := inferInstanceAs (Decidable True)
  fails _ := inferInstanceAs (Decidable False)
  stops := inferInstanceAs (Decidable False)

instance (G : Regime R X σ Req) [T : G.Test] (bad : ℕ → Req → Q → Shared R X σ Req → Prop)
    [∀ p r q s, Decidable (bad p r q s)] : (G.avoiding bad).Test where
  spawns := T.spawns
  admits p r q s :=
    have : Decidable (G.admits p r q s) := T.admits p r q s
    inferInstanceAs (Decidable (G.admits p r q s ∧ ¬ bad p r q s))
  fails := T.fails
  stops := T.stops

section Exec

variable {G : Regime R X σ Req} [T : G.Test]

instance Regime.decidablePermits (w : World R X σ Err Res) :
    ∀ a : Action Req X ι η, Decidable (G.Permits w a)
  | .spawn _ r => T.spawns r
  | .step p _ =>
    match h : w.next p with
    | none => isTrue fun r q hq => by simp [h] at hq
    | some (r, q) =>
      have : Decidable (G.admits p r q w.shared) := T.admits p r q w.shared
      decidable_of_iff (G.admits p r q w.shared)
        ⟨fun ha r' q' hq => by cases h.symm.trans hq; exact ha, fun ha => ha r q h⟩
  | .fail p _ =>
    match h : w.next p with
    | none => isTrue fun r q hq => by simp [h] at hq
    | some (r, q) =>
      have : Decidable (G.fails q) := T.fails q
      decidable_of_iff (G.fails q)
        ⟨fun ha r' q' hq => by cases h.symm.trans hq; exact ha, fun ha => ha r q h⟩
  | .stop _ => T.stops
  | .pass _ => isTrue trivial

variable (G) (S : Store R X σ ι η) (script : (r : Req) → Script R X (Err r) (Res r))

/-- Run a list of actions, as long as the regime permits each of them and it can happen. -/
def exec : List (Action Req X ι η) → World R X σ Err Res → Option (World R X σ Err Res)
  | [], w => some w
  | a :: as, w => if G.Permits w a then (w.act S script a).bind (exec as) else none

/-- Where a list of actions leads; nowhere if it cannot be run to the end. -/
def play (as : List (Action Req X ι η)) (w : World R X σ Err Res) : World R X σ Err Res :=
  (exec G S script as w).getD w

variable {S script}

theorem Regime.reaches_of_exec {as : List (Action Req X ι η)} {w w' : World R X σ Err Res}
    (h : exec G S script as w = some w') : G.Reaches S script w w' := by
  induction as generalizing w with
  | nil =>
    cases h
    exact .refl
  | cons a as ih =>
    rw [exec] at h
    split at h
    · next ha =>
      obtain ⟨w₁, hact, hrest⟩ := Option.bind_eq_some_iff.mp h
      exact .head ⟨a, ha, hact⟩ (ih hrest)
    · cases h

/-- The names that requests are given. -/
def spawned (as : List (Action Req X ι η)) : List ℕ :=
  as.filterMap fun
    | .spawn p _ => some p
    | _ => none

theorem act_procs {a : Action Req X ι η} {w w' : World R X σ Err Res} {p : ℕ}
    (h : w.act S script a = some w') (hp : w.procs p = none) (hne : p ∉ spawned [a]) :
    w'.procs p = none := by
  cases a with
  | pass e =>
    cases h
    exact hp
  | spawn p' r =>
    simp only [World.act] at h
    split at h
    · cases h
      have hpp : p ≠ p' := by simpa [spawned] using hne
      simpa [World.resume, Function.update_of_ne hpp] using hp
    · cases h
  | step p' c =>
    simp only [World.act] at h
    split at h
    · next hp' =>
      obtain ⟨_, -, rfl⟩ := Option.map_eq_some_iff.mp h
      have hpp : p ≠ p' := fun heq => by simp [heq ▸ hp] at hp'
      simpa [World.resume, Function.update_of_ne hpp] using hp
    · cases h
  | fail p' x =>
    simp only [World.act] at h
    split at h
    · next hp' =>
      cases h
      have hpp : p ≠ p' := fun heq => by simp [heq ▸ hp] at hp'
      simpa [World.resume, Function.update_of_ne hpp] using hp
    · cases h
  | stop p' =>
    simp only [World.act] at h
    split at h
    · next hp' =>
      cases h
      have hpp : p ≠ p' := fun heq => by simp [heq ▸ hp] at hp'
      simpa [World.resume, Function.update_of_ne hpp] using hp
    · cases h

theorem exec_procs {as : List (Action Req X ι η)} {w w' : World R X σ Err Res} {p : ℕ}
    (h : exec G S script as w = some w') (hp : w.procs p = none) (hne : p ∉ spawned as) :
    w'.procs p = none := by
  induction as generalizing w with
  | nil =>
    cases h
    exact hp
  | cons a as ih =>
    rw [exec] at h
    split at h
    · obtain ⟨w₁, hact, hrest⟩ := Option.bind_eq_some_iff.mp h
      have hsplit : spawned (a :: as) = spawned [a] ++ spawned as := by
        rw [← List.singleton_append, spawned, List.filterMap_append]
        rfl
      rw [hsplit, List.mem_append, not_or] at hne
      exact ih hrest (act_procs hact hp hne.1) hne.2
    · cases h

/-- Nobody is there who has not arrived. -/
theorem procs_play {as : List (Action Req X ι η)} {db : σ} {p : ℕ} (hp : p ∉ spawned as) :
    (play G S script as (World.start db)).procs p = none := by
  unfold play
  cases hexec : exec G S script as (World.start db) with
  | none => rfl
  | some w' => exact exec_procs G hexec rfl hp

/-- To see that nobody is in flight it is enough to look at those who arrived. -/
theorem ended_play {as : List (Action Req X ι η)} {db : σ}
    (h : ∀ p ∈ spawned as, (play G S script as (World.start db)).endedAt p = true) :
    (play G S script as (World.start db)).Ended := by
  intro p
  by_cases hp : p ∈ spawned as
  · exact h p hp
  · simp [World.endedAt, procs_play G hp]

theorem Regime.reaches_play (as : List (Action Req X ι η)) (w : World R X σ Err Res) :
    G.Reaches S script w (play G S script as w) := by
  unfold play
  cases h : exec G S script as w with
  | none => exact .refl
  | some w' => exact reaches_of_exec G h

end Exec

end Interleave
