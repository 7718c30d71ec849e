import SubmitSnap.Interleave.World

/-!
# Traces: what has happened, and invariants that speak of it

A trace is a list of events, newest first. `Since mark reset` is the past-time operator most
properties of a store need: something was marked, and nothing has taken the mark back. It is defined
by recursion, so adding an event is a rewriting step; `since_iff` is its meaning as a split of the
trace. `Throughout` says something of every event together with the trace before it, and `Once` of
some event.

`Regime.inv_of_reaches` is the invariant rule for properties that single statements keep, whoever
executes them. `Shared.since` is what lies between two points of a run.

## Why the past is enough

What a request may count on is nearly always of the form "this was so when it looked, and nothing
that would have changed it has happened since". Keeping such facts in the state would take a ghost
variable for each, and a proof that the code updates it. Here they are read off the trace: the
trace is written by the machine and not by the code, so it cannot be wrong. A claim about an
interval is a `Since`, a claim about every statement so far is a `Throughout`, and a claim about
one moment is a membership.

The answers in a trace are true (`Regime.Reaches.answered`): an event carries the state in which
it was executed, and its reply is what the statement gives there. So whoever finds an answer in
the trace has found a state of the run.
-/

namespace Interleave

section Trace

variable {α : Type}

/-- Some event satisfies `mark`, and no later one satisfies `reset`. -/
def Since (mark reset : α → Prop) : List α → Prop
  | [] => False
  | e :: log => mark e ∨ (¬ reset e ∧ Since mark reset log)

variable {mark reset : α → Prop} {e : α} {log : List α}

@[simp] theorem since_nil : ¬ Since mark reset [] := id

@[simp] theorem since_cons :
    Since mark reset (e :: log) ↔ mark e ∨ (¬ reset e ∧ Since mark reset log) := Iff.rfl

/-- An event that neither marks nor resets changes nothing. -/
theorem since_cons_of_not (hm : ¬ mark e) (hr : ¬ reset e) :
    Since mark reset (e :: log) ↔ Since mark reset log := by
  simp [hm, hr]

/-- Events that do not reset. -/
theorem since_append {new : List α} (h : ∀ e ∈ new, ¬ reset e) :
    Since mark reset (new ++ log) ↔ (∃ e ∈ new, mark e) ∨ Since mark reset log := by
  induction new with
  | nil => simp
  | cons e new ih =>
    rw [List.cons_append, since_cons, ih fun e' he' => h e' (List.mem_cons_of_mem _ he'),
      and_iff_right (h e List.mem_cons_self), ← or_assoc]
    simp

theorem Since.exists_mem (h : Since mark reset log) : ∃ e ∈ log, mark e := by
  induction log with
  | nil => exact h.elim
  | cons e log ih =>
    rcases h with hm | ⟨-, h⟩
    · exact ⟨e, List.mem_cons_self, hm⟩
    · obtain ⟨e', he', hm⟩ := ih h
      exact ⟨e', List.mem_cons_of_mem _ he', hm⟩

theorem since_iff : Since mark reset log ↔
    ∃ later e earlier, log = later ++ e :: earlier ∧ mark e ∧ ∀ e' ∈ later, ¬ reset e' := by
  induction log with
  | nil => simp
  | cons e log ih =>
    rw [since_cons, ih]
    constructor
    · rintro (hm | ⟨hr, later, e', earlier, rfl, hm, hlater⟩)
      · exact ⟨[], e, log, rfl, hm, by simp⟩
      · exact ⟨e :: later, e', earlier, rfl, hm, by simpa using ⟨hr, hlater⟩⟩
    · rintro ⟨later, e', earlier, heq, hm, hlater⟩
      cases later with
      | nil =>
        cases heq
        exact .inl hm
      | cons e'' later =>
        cases heq
        exact .inr ⟨hlater e (by simp), later, e', earlier, rfl, hm,
          fun a ha => hlater a (by simp [ha])⟩

instance [DecidablePred mark] [DecidablePred reset] : DecidablePred (Since mark reset)
  | [] => isFalse id
  | e :: log =>
    have : Decidable (Since mark reset log) := instDecidablePredListSince log
    inferInstanceAs (Decidable (mark e ∨ (¬ reset e ∧ Since mark reset log)))

/-- Every event satisfies `P`, given the trace before it. -/
def Throughout (P : α → List α → Prop) : List α → Prop
  | [] => True
  | e :: log => P e log ∧ Throughout P log

variable {P : α → List α → Prop}

@[simp] theorem throughout_nil : Throughout P [] := trivial

@[simp] theorem throughout_cons :
    Throughout P (e :: log) ↔ P e log ∧ Throughout P log := Iff.rfl

instance Throughout.decidable [∀ e log, Decidable (P e log)] : DecidablePred (Throughout P)
  | [] => isTrue trivial
  | e :: log =>
    have : Decidable (Throughout P log) := Throughout.decidable log
    inferInstanceAs (Decidable (P e log ∧ Throughout P log))

theorem Throughout.mono {P' : α → List α → Prop} (h : Throughout P log)
    (hP : ∀ e earlier, P e earlier → P' e earlier) : Throughout P' log := by
  induction log with
  | nil => trivial
  | cons e log ih => exact ⟨hP e log h.1, ih h.2⟩

theorem Throughout.of_append {new : List α} (h : Throughout P (new ++ log)) : Throughout P log := by
  induction new with
  | nil => exact h
  | cons e new ih => exact ih h.2

theorem throughout_iff :
    Throughout P log ↔ ∀ later e earlier, log = later ++ e :: earlier → P e earlier := by
  induction log with
  | nil => simp
  | cons e log ih =>
    rw [throughout_cons, ih]
    constructor
    · rintro ⟨he, hlog⟩ later e' earlier heq
      cases later with
      | nil => cases heq; exact he
      | cons e'' later => cases heq; exact hlog later e' earlier rfl
    · intro h
      exact ⟨h [] e log rfl, fun later e' earlier heq =>
        h (e :: later) e' earlier (by rw [heq]; rfl)⟩

/-- Some event satisfies `P`, given the trace before it. -/
def Once (P : α → List α → Prop) : List α → Prop
  | [] => False
  | e :: log => P e log ∨ Once P log

@[simp] theorem once_nil : ¬ Once P [] := id

@[simp] theorem once_cons : Once P (e :: log) ↔ P e log ∨ Once P log := Iff.rfl

instance Once.decidable [∀ e log, Decidable (P e log)] : DecidablePred (Once P)
  | [] => isFalse id
  | e :: log =>
    have : Decidable (Once P log) := Once.decidable log
    inferInstanceAs (Decidable (P e log ∨ Once P log))

theorem Once.append (h : Once P log) : ∀ new, Once P (new ++ log)
  | [] => h
  | _ :: new => .inr (h.append new)

theorem Once.exists_mem (h : Once P log) : ∃ e ∈ log, ∃ earlier, P e earlier := by
  induction log with
  | nil => exact h.elim
  | cons e log ih =>
    rcases h with he | h
    · exact ⟨e, List.mem_cons_self, log, he⟩
    · obtain ⟨e', he', hP⟩ := ih h
      exact ⟨e', List.mem_cons_of_mem _ he', hP⟩

theorem once_iff :
    Once P log ↔ ∃ later e earlier, log = later ++ e :: earlier ∧ P e earlier := by
  constructor
  · intro h
    induction log with
    | nil => exact h.elim
    | cons e log ih =>
      rcases h with he | h
      · exact ⟨[], e, log, rfl, he⟩
      · obtain ⟨later, e', earlier, rfl, he'⟩ := ih h
        exact ⟨e :: later, e', earlier, rfl, he'⟩
  · rintro ⟨later, e, earlier, rfl, he⟩
    exact Once.append (once_cons.mpr (.inl he)) later

/-- What holds of every event holds of one that happened. -/
theorem Throughout.of_once {P' : α → List α → Prop} (h : Throughout P log) (h' : Once P' log) :
    Once (fun e earlier => P e earlier ∧ P' e earlier) log := by
  induction log with
  | nil => exact h'.elim
  | cons e log ih => exact h'.imp (fun he => ⟨h.1, he⟩) (ih h.2)

/-- What happens at most once happens once. -/
theorem Throughout.eq_of_mem {K : α → Prop}
    (h : Throughout (fun e earlier => K e → ∀ e' ∈ earlier, ¬ K e') log) {e e' : α} (he : e ∈ log)
    (he' : e' ∈ log) (hK : K e) (hK' : K e') : e = e' := by
  induction log with
  | nil => cases he
  | cons e₀ log ih =>
    obtain ⟨hhead, hrest⟩ := h
    rcases List.mem_cons.mp he with rfl | hmem <;> rcases List.mem_cons.mp he' with rfl | hmem'
    · rfl
    · exact absurd hK' (hhead hK e' hmem')
    · exact absurd hK (hhead hK' e hmem)
    · exact ih hrest hmem hmem'

end Trace

variable {Q : Type} {R : Q → Type} {X σ ι η Req : Type} {Err Res : Req → Type}

/-- What `q`, executed by `p` for `r`, may do to the shared state: it takes effect, or it fails. -/
inductive Regime.Effect (G : Regime R X σ Req) (S : Store R X σ ι η) (p : ℕ) (r : Req) (q : Q)
    (s : Shared R X σ Req) : Except X (R q) → Shared R X σ Req → Prop where
  | run {c : ι} {db : σ} {x : Except X (R q)} (hadmits : G.admits p r q s)
      (hrun : S.run p q c s.db = some (db, x)) : Effect G S p r q s x (s.push p r q db x)
  | fail {e : X} (hfails : G.fails q) :
      Effect G S p r q s (.error e) (s.push p r q (S.abort p s.db) (.error e))

variable {G : Regime R X σ Req} {S : Store R X σ ι η} {p : ℕ} {r : Req} {q : Q}
  {s s' : Shared R X σ Req} {x : Except X (R q)}

theorem Regime.Effect.log_eq (h : G.Effect S p r q s x s') :
    s'.log = ⟨p, r, s.db, q, x⟩ :: s.log := by
  cases h <;> rfl

theorem Regime.Effect.mem (h : G.Effect S p r q s x s') {e : Event R X σ Req} (he : e ∈ s.log) :
    e ∈ s'.log := by
  rw [h.log_eq]
  exact List.mem_cons_of_mem _ he

theorem Regime.Effect.mem_self (h : G.Effect S p r q s x s') : ⟨p, r, s.db, q, x⟩ ∈ s'.log := by
  rw [h.log_eq]
  exact List.mem_cons_self

/-- A successful statement took effect, in a state the regime admits it in. -/
theorem Regime.Effect.of_ok {a : R q} (h : G.Effect S p r q s (.ok a) s') :
    G.admits p r q s ∧ ∃ c db, S.run p q c s.db = some (db, .ok a) ∧
      s' = s.push p r q db (.ok a) := by
  cases h with
  | run hadmits hrun => exact ⟨hadmits, _, _, hrun, rfl⟩

/-- What one action does to the shared state. -/
inductive Regime.Moves (G : Regime R X σ Req) (S : Store R X σ ι η) (s : Shared R X σ Req) :
    Shared R X σ Req → Prop where
  | arrive : Moves G S s s
  | effect {p : ℕ} {r : Req} {q : Q} {x : Except X (R q)} {s' : Shared R X σ Req}
      (h : G.Effect S p r q s x s') : Moves G S s s'
  | stop {p : ℕ} (h : G.stops) : Moves G S s { s with db := S.abort p s.db }
  | pass {e : η} : Moves G S s { s with db := S.pass e s.db }

variable {script : (r : Req) → Script R X (Err r) (Res r)} {w w' : World R X σ Err Res}

theorem Regime.Step.moves (h : G.Step S script w w') : G.Moves S w.shared w'.shared := by
  obtain ⟨a, ha, hact⟩ := h
  cases a with
  | spawn p r =>
    simp only [World.act] at hact
    split at hact
    · cases hact
      exact .arrive
    · cases hact
  | step p c =>
    simp only [World.act] at hact
    split at hact
    · next r q k hp =>
      obtain ⟨⟨db, x⟩, hrun, rfl⟩ := Option.map_eq_some_iff.mp hact
      exact .effect (.run (ha r q (by simp [World.next, hp])) hrun)
    · cases hact
  | fail p x =>
    simp only [World.act] at hact
    split at hact
    · next r q k hp =>
      cases hact
      exact .effect (.fail (ha r q (by simp [World.next, hp])))
    · cases hact
  | stop p =>
    simp only [World.act] at hact
    split at hact
    · cases hact
      exact .stop ha
    · cases hact
  | pass e =>
    cases hact
    exact .pass

theorem Regime.Moves.inv {I : Shared R X σ Req → Prop}
    (heffect : ∀ {p r q s x s'}, I s → G.Effect S p r q s x s' → I s')
    (hstop : ∀ {p s}, G.stops → I s → I { s with db := S.abort p s.db })
    (hpass : ∀ {e s}, I s → I { s with db := S.pass e s.db })
    (h : G.Moves S s s') (hs : I s) : I s' := by
  cases h with
  | arrive => exact hs
  | effect h => exact heffect hs h
  | stop h => exact hstop h hs
  | pass => exact hpass hs

/-- **Invariants of single statements.** What every statement keeps, whoever executes it, and what
a process that stops and the environment keep too, holds throughout every run. -/
theorem Regime.inv_of_reaches {I : Shared R X σ Req → Prop}
    (heffect : ∀ {p r q s x s'}, I s → G.Effect S p r q s x s' → I s')
    (hstop : ∀ {p s}, G.stops → I s → I { s with db := S.abort p s.db })
    (hpass : ∀ {e s}, I s → I { s with db := S.pass e s.db })
    (hw : I w.shared) (h : G.Reaches S script w w') : I w'.shared := by
  induction h with
  | refl => exact hw
  | tail _ hstep ih => exact hstep.moves.inv heffect hstop hpass ih

/-- **What took effect was admitted.** -/
theorem Regime.Reaches.admitted {db : σ} (h : G.Reaches S script (World.start db) w) :
    Throughout (fun e earlier => ∀ a, e.reply = .ok a →
      G.admits e.pid e.req e.stmt ⟨e.before, earlier⟩) w.shared.log := by
  refine Regime.inv_of_reaches (I := fun s => Throughout (fun e earlier => ∀ a, e.reply = .ok a →
    G.admits e.pid e.req e.stmt ⟨e.before, earlier⟩) s.log) ?_ (fun _ hs => hs) (fun hs => hs)
    throughout_nil h
  intro p r q s x s' hs hx
  rw [hx.log_eq]
  refine ⟨?_, hs⟩
  cases x with
  | error e => exact fun _ => nofun
  | ok a => exact fun _ _ => hx.of_ok.1

/-- **What was answered was the truth**: it is what the statement gives in the state it was executed
in. -/
theorem Regime.Reaches.answered {db : σ} (h : G.Reaches S script (World.start db) w) :
    ∀ e ∈ w.shared.log, ∀ a, e.reply = .ok a →
      ∃ c db', S.run e.pid e.stmt c e.before = some (db', .ok a) := by
  refine Regime.inv_of_reaches (I := fun s => ∀ e ∈ s.log, ∀ a, e.reply = .ok a →
    ∃ c db', S.run e.pid e.stmt c e.before = some (db', .ok a)) ?_ (fun _ hs => hs) (fun hs => hs)
    (fun _ he => absurd he List.not_mem_nil) h
  intro p r q s x s' hs hx e he a ha
  rw [hx.log_eq] at he
  rcases List.mem_cons.mp he with rfl | he
  · have hok : G.Effect S p r q s (.ok a) s' := (show x = .ok a from ha) ▸ hx
    obtain ⟨-, c, db', hrun, -⟩ := hok.of_ok
    exact ⟨c, db', hrun⟩
  · exact hs e he a ha

/-! ### Two points of a run -/

/-- What has been done since an earlier state. -/
def Shared.since (s s₀ : Shared R X σ Req) : List (Event R X σ Req) :=
  s.log.take (s.log.length - s₀.log.length)

theorem Shared.since_eq {s s₀ : Shared R X σ Req} {new : List (Event R X σ Req)}
    (h : s.log = new ++ s₀.log) : s.since s₀ = new := by
  rw [since, h, List.length_append, Nat.add_sub_cancel, List.take_left]

/-- The trace only grows. -/
theorem Regime.Reaches.log_eq (h : G.Reaches S script w w') :
    w'.shared.log = w'.shared.since w.shared ++ w.shared.log := by
  have hgrows : ∃ new, w'.shared.log = new ++ w.shared.log := by
    refine Regime.inv_of_reaches (I := fun s => ∃ new, s.log = new ++ w.shared.log)
      (fun hs hx => ?_) (fun _ hs => hs) (fun hs => hs) ⟨[], rfl⟩ h
    obtain ⟨new, hnew⟩ := hs
    exact ⟨_ :: new, by rw [hx.log_eq, hnew]; rfl⟩
  obtain ⟨new, hnew⟩ := hgrows
  rw [Shared.since_eq hnew]
  exact hnew

/-- The invariant rule for what has been done since an earlier state. -/
theorem Regime.Reaches.inv_since {I : List (Event R X σ Req) → σ → Prop}
    (h : G.Reaches S script w w') (hstart : I [] w.shared.db)
    (heffect : ∀ {p r q s x s' new}, I new s.db → G.Effect S p r q s x s' →
      I (⟨p, r, s.db, q, x⟩ :: new) s'.db)
    (hstop : ∀ {p db new}, G.stops → I new db → I new (S.abort p db))
    (hpass : ∀ {e db new}, I new db → I new (S.pass e db)) :
    I (w'.shared.since w.shared) w'.shared.db := by
  have hinv : ∃ new, w'.shared.log = new ++ w.shared.log ∧ I new w'.shared.db := by
    refine Regime.inv_of_reaches (I := fun s => ∃ new, s.log = new ++ w.shared.log ∧ I new s.db)
      (fun hs hx => ?_) (fun hstops hs => ?_) (fun hs => ?_) ⟨[], rfl, hstart⟩ h
    · obtain ⟨new, hnew, hI⟩ := hs
      exact ⟨_ :: new, by rw [hx.log_eq, hnew]; rfl, heffect hI hx⟩
    · obtain ⟨new, hnew, hI⟩ := hs
      exact ⟨new, hnew, hstop hstops hI⟩
    · obtain ⟨new, hnew, hI⟩ := hs
      exact ⟨new, hnew, hpass hI⟩
  obtain ⟨new, hnew, hI⟩ := hinv
  rwa [Shared.since_eq hnew]

/-- **A run passes through the states its trace records.** -/
theorem Regime.Reaches.visits (h : G.Reaches S script w w') {e : Event R X σ Req}
    {later earlier : List (Event R X σ Req)}
    (hlog : w'.shared.log = later ++ e :: (earlier ++ w.shared.log)) :
    ∃ w₁, G.Reaches S script w w₁ ∧ w₁.shared = ⟨e.before, earlier ++ w.shared.log⟩ ∧
      G.Reaches S script w₁ w' := by
  induction h generalizing later with
  | refl =>
    have hlength := congrArg List.length hlog
    simp only [List.length_append, List.length_cons] at hlength
    omega
  | @tail w₂ w₃ hreach hstep ih =>
    have hkeep : w₃.shared.log = w₂.shared.log → ∃ w₁, G.Reaches S script w w₁ ∧
        w₁.shared = ⟨e.before, earlier ++ w.shared.log⟩ ∧ G.Reaches S script w₁ w₃ := by
      intro heq
      obtain ⟨w₁, hto, hshared, hfrom⟩ := ih (heq ▸ hlog)
      exact ⟨w₁, hto, hshared, hfrom.tail hstep⟩
    generalize hs₃ : w₃.shared = s₃ at hlog hkeep
    cases hs₃ ▸ hstep.moves with
    | arrive => exact hkeep rfl
    | stop _ => exact hkeep rfl
    | pass => exact hkeep rfl
    | effect hx =>
      rw [hx.log_eq] at hlog
      cases later with
      | nil =>
        obtain ⟨rfl, hrest⟩ := List.cons.inj hlog
        exact ⟨w₂, hreach, by rw [← hrest], .single hstep⟩
      | cons e' later =>
        obtain ⟨w₁, hto, hshared, hfrom⟩ := ih (List.cons.inj hlog).2
        exact ⟨w₁, hto, hshared, hfrom.tail hstep⟩

/-- The same, with the step the entry records. -/
theorem Regime.Reaches.visits_effect (h : G.Reaches S script w w') {e : Event R X σ Req}
    (he : e ∈ w'.shared.since w.shared) :
    ∃ w₁ w₂, G.Reaches S script w w₁ ∧ w₁.shared.db = e.before ∧ G.Reaches S script w₁ w₂ ∧
      G.Effect S e.pid e.req e.stmt w₁.shared e.reply w₂.shared ∧ G.Reaches S script w₂ w' := by
  have hlog := h.log_eq
  generalize w'.shared.since w.shared = new at he hlog
  induction h generalizing new with
  | refl =>
    have hlength := congrArg List.length hlog
    rw [List.length_append] at hlength
    obtain rfl : new = [] := List.eq_nil_of_length_eq_zero (by omega)
    exact absurd he List.not_mem_nil
  | @tail w₂ w₃ hreach hstep ih =>
    have hkeep : w₃.shared.log = w₂.shared.log → ∃ w₁ w₂, G.Reaches S script w w₁ ∧
        w₁.shared.db = e.before ∧ G.Reaches S script w₁ w₂ ∧
        G.Effect S e.pid e.req e.stmt w₁.shared e.reply w₂.shared ∧ G.Reaches S script w₂ w₃ := by
      intro heq
      obtain ⟨w₁, w₁', hto, hbefore, hmid, hx, hfrom⟩ := ih new he (heq ▸ hlog)
      exact ⟨w₁, w₁', hto, hbefore, hmid, hx, hfrom.tail hstep⟩
    generalize hs₃ : w₃.shared = s₃ at hlog hkeep
    cases hs₃ ▸ hstep.moves with
    | arrive => exact hkeep rfl
    | stop _ => exact hkeep rfl
    | pass => exact hkeep rfl
    | @effect p r q x _ hx =>
      rw [hx.log_eq] at hlog
      cases new with
      | nil => exact absurd he List.not_mem_nil
      | cons e' new =>
        obtain ⟨rfl, hrest⟩ := List.cons.inj hlog
        rcases List.mem_cons.mp he with rfl | he
        · exact ⟨w₂, w₃, hreach, rfl, .single hstep, hs₃ ▸ hx, .refl⟩
        · obtain ⟨w₁, w₁', hto, hbefore, hmid, hx', hfrom⟩ := ih new he hrest
          exact ⟨w₁, w₁', hto, hbefore, hmid, hx', hfrom.tail hstep⟩

theorem Regime.Reaches.visits_of_mem (h : G.Reaches S script w w') {e : Event R X σ Req}
    (he : e ∈ w'.shared.since w.shared) :
    ∃ w₁, G.Reaches S script w w₁ ∧ w₁.shared.db = e.before ∧ G.Reaches S script w₁ w' := by
  obtain ⟨later, earlier, hsplit⟩ := List.append_of_mem he
  have hlog := h.log_eq
  rw [hsplit, List.append_assoc, List.cons_append] at hlog
  obtain ⟨w₁, hto, hshared, hfrom⟩ := h.visits hlog
  exact ⟨w₁, hto, congrArg Shared.db hshared, hfrom⟩

/-- What has been done since an earlier state has been done in a later part of the run. -/
theorem Regime.Reaches.mem_since {w'' : World R X σ Err Res} (h : G.Reaches S script w w')
    (h' : G.Reaches S script w' w'') {e : Event R X σ Req} (he : e ∈ w'.shared.since w.shared) :
    e ∈ w''.shared.since w.shared := by
  have hlog : w''.shared.log =
      (w''.shared.since w'.shared ++ w'.shared.since w.shared) ++ w.shared.log := by
    rw [h'.log_eq, h.log_eq, List.append_assoc, ← h.log_eq]
  rw [Shared.since_eq hlog]
  exact List.mem_append_right _ he

end Interleave
