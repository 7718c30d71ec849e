import SubmitSnap.Footprints
import SubmitSnap.Identity.PasswordHash

/-!
# Lockout

A wrong password is counted, and locks the account once there have been enough. What is left of a
lock that has expired must not count, so an attempt that has read one clears the counter first. It
clears what is there by then, though, which may be the failures that others have counted meanwhile,
or the lock they have brought about; and the deadline of a lock is the one of the attempt that
happens to write it, which may have looked at the clock long ago.

## The argument

The counter and the lock are columns of one row, and three statements write them: one clears both,
one counts and may lock, one belongs to a successful login and does not occur in these runs. So
the state of an account is decided by the order in which those statements land. The invariant
`LockInv` relates the row to that order. A lock that is there was earned: there were enough
failures (`earned`). Failures that were counted since some moment without a lock are in the
counter, all of them, and are not enough yet (`counted`). A lock is as long as its attempt has
made it (`stays`).

What could go wrong is in the conditions `untimely`. An attempt that has read an expired lock
clears whatever it finds, and nothing in the statement says that it is still that lock. And an
attempt that locks the account writes the deadline it has computed earlier. As long as neither
happens, every statement keeps `LockInv`, and the three parts of the result are read off it. The
first of the two conditions is the one that fails in practice: two attempts on an expired lock are
enough.

Why "enough attempts" counts attempts that begin and complete in the interval: an attempt that
began before the interval may have read the old lock, and may count without having cleared it.

## Main results

* `lockoutHolds_of_reaches` — no failure is forgotten and no lock cut short, in every run in which
  attempts clear only what has expired and write only deadlines that extend a lock.
* `not_lockoutHolds` — two attempts on an expired lock.
-/

namespace SubmitSnap

open Interleave

/-! ### Attempts -/

/-- The attempts to sign in. -/
def Request.isLogin : Request → Prop
  | login _ _ _ => True
  | _ => False

/-- `p` reads the account. -/
def readsAccount (p : ℕ) (row : UserRecord) : Event → Prop
  | ⟨p', _, _, .users (.find_by_email _), .ok (some row')⟩ => p' = p ∧ row' = row
  | _ => False

/-- `p` looks at the clock. -/
def readsClock (p : ℕ) (now : Timestamp) : Event → Prop
  | ⟨p', _, _, .now, .ok now'⟩ => p' = p ∧ now' = now
  | _ => False

/-- The failures of the account are cleared. -/
def clearsFailures (id : Uuid) : Event → Prop
  | ⟨_, _, _, .users (.reset_login_failures id'), .ok ()⟩ => id' = id
  | _ => False

/-- A failure of the account is counted. -/
def countsFailure (id : Uuid) : Event → Prop
  | ⟨_, _, _, .users (.record_login_failure id' _ _), .ok _⟩ => id' = id
  | _ => False

/-- A failure locks the account, until a moment that is still to come. -/
def locksUntil (id : Uuid) (until_ : Timestamp) : Event → Prop
  | ⟨_, _, before, .users (.record_login_failure id' _ lock_until), .ok (some locked)⟩ =>
    id' = id ∧ locked = until_ ∧ lock_until = until_ ∧ before.clock < until_
  | _ => False

/-- A failure locks the account. -/
def locksOut (id : Uuid) : Event → Prop
  | ⟨_, _, before, .users (.record_login_failure id' _ lock_until), .ok (some locked)⟩ =>
    id' = id ∧ lock_until = locked ∧ before.clock < locked
  | _ => False

/-- A failure has been counted, and the account has not been locked since. -/
def FailureStands (id : Uuid) : List Event → Prop :=
  Since (fun e => countsFailure id e ∧ ¬ locksOut id e) (locksOut id)

/-- A lockout that failures cannot get around. -/
structure LockoutHolds (config : AppConfig) (id : Uuid) (s : State) : Prop where
  /-- No attempt clears a lock in force, or a failure counted since the last lock. -/
  clears : Throughout (fun e earlier => clearsFailures id e →
    (∀ row ∈ e.before.users.rows, row.id = id → row.is_locked e.before.clock = false) ∧
      ¬ FailureStands id earlier) s.log
  /-- When enough attempts have begun and completed since any moment, the account has been locked
  since. -/
  enough : ∀ later earlier, s.log = later ++ earlier → ∀ attempts : List ℕ, attempts.Nodup →
    (∀ p ∈ attempts, (∃ e ∈ later, ∃ row, readsAccount p row e ∧ row.id = id) ∧
      ∃ e ∈ later, e.pid = p ∧ countsFailure id e) →
    config.max_failed_login_attempts ≤ attempts.length → ∃ e ∈ later, locksOut id e
  /-- A lock lasts as long as it should, from the moment the attempt has looked at the clock. -/
  stays : ∀ e ∈ s.log, ∀ until_, locksUntil id until_ e →
    (∃ now, until_ = now + seconds config.account_lock_duration_seconds ∧
      ∃ e' ∈ s.log, readsClock e.pid now e') ∧
    (s.db.clock < until_ → ∀ row ∈ s.db.users.rows, row.id = id →
      row.is_locked s.db.clock = true)

/-- The account is signed in to. -/
def signsIn (id : Uuid) : Stmt → Prop
  | .users (.record_login_success id') => id' = id
  | _ => False

/-- The failures are cleared over a lock in force or over failures counted without one; or a failure
that locks the account carries a deadline that has passed, or that comes before the one it
replaces. -/
def untimely (id : Uuid) (db : Database) : Stmt → Prop
  | .users (.reset_login_failures id') => id' = id ∧ ∃ row ∈ db.users.rows, row.id = id ∧
    (row.is_locked db.clock = true ∨ (row.locked_until = none ∧ row.failed_login_attempts ≠ 0))
  | .users (.record_login_failure id' max_attempts lock_until) => id' = id ∧
    ∃ row ∈ db.users.rows, row.id = id ∧
      min max_attempts i32Max ≤ row.failed_login_attempts + 1 ∧
      (lock_until ≤ db.clock ∨ row.is_locked lock_until = true)
  | _ => False

/-- The runs of attempts none of which signs in to the account. -/
abbrev wrongAttempts (id : Uuid) : Regime :=
  (Regime.free Request.isLogin).avoiding fun _ _ q _ => signsIn id q

/-- Those in which every statement on the failures is timely. -/
abbrev attemptsTimely (id : Uuid) : Regime :=
  (wrongAttempts id).avoiding fun _ _ q s => untimely id s.db q

/-! ### What single statements do to the failures -/

/-- The statements of an attempt on accounts. -/
def UserStmt.ofAttempt : UserStmt → Prop
  | find_by_email _ | find_by_id _ | record_login_success _ | reset_login_failures _
  | record_login_failure _ _ _ | replace_password_hash _ _ => True
  | _ => False

/-- What a statement makes of the failures of an account. -/
inductive FailuresBecome (u u' : UserRecord) : Stmt → Prop where
  | same {q : Stmt} (hlock : u'.locked_until = u.locked_until)
      (hfailed : u'.failed_login_attempts = u.failed_login_attempts)
      (hclear : q ≠ .users (.reset_login_failures u.id))
      (hcount : ∀ max_attempts lock_until,
        q ≠ .users (.record_login_failure u.id max_attempts lock_until)) : FailuresBecome u u' q
  | clear (hlock : u'.locked_until = none) (hfailed : u'.failed_login_attempts = 0) :
      FailuresBecome u u' (.users (.reset_login_failures u.id))
  | count {max_attempts : ℕ} {lock_until : Timestamp}
      (hlock : u'.locked_until = if min max_attempts i32Max ≤ u.failed_login_attempts + 1
        then some lock_until else u.locked_until)
      (hfailed : u'.failed_login_attempts = u.failed_login_attempts + 1) :
      FailuresBecome u u' (.users (.record_login_failure u.id max_attempts lock_until))
  | signIn : FailuresBecome u u' (.users (.record_login_success u.id))

theorem locksUntil.locksOut {id : Uuid} {until_ : Timestamp} {e : Event}
    (h : locksUntil id until_ e) : locksOut id e := by
  unfold locksUntil at h
  split at h
  · obtain ⟨hid, rfl, hlocked, hclock⟩ := h
    exact ⟨hid, hlocked, hclock⟩
  · exact h.elim

section Statements

variable {P : Platform} {p : ℕ} {c : Choice} {db db' : Database}

/-- **Where the failures of an account come from.** -/
theorem Stmt.failures_origin {q : Stmt} {x : Except Failure q.Reply}
    (h : q.run P p c db = some (db', x)) (hq : ∀ q', q = .users q' → q'.ofAttempt)
    {u' : UserRecord} (hu' : u' ∈ db'.users.rows) :
    ∃ u ∈ db.users.rows, u'.id = u.id ∧ FailuresBecome u u' q := by
  by_cases husers : ∃ q', q = .users q'
  · obtain ⟨q', rfl⟩ := husers
    cases q' with
    | find_by_email _ | find_by_id _ =>
      cases h
      exact ⟨u', hu', rfl, .same rfl rfl (by simp) (by simp)⟩
    | replace_password_hash id hash =>
      simp only [Stmt.run, UserStmt.run] at h
      split at h <;> cases h
      obtain ⟨u, hu, ⟨-, rfl⟩ | ⟨-, rfl⟩⟩ := Table.of_mem_updateWhere hu'
      · exact ⟨u, hu, rfl, .same rfl rfl (by simp) (by simp)⟩
      · exact ⟨u', hu, rfl, .same rfl rfl (by simp) (by simp)⟩
    | record_login_success id =>
      simp only [Stmt.run, UserStmt.run] at h
      split at h <;> cases h
      obtain ⟨u, hu, ⟨hsel, rfl⟩ | ⟨-, rfl⟩⟩ := Table.of_mem_updateWhere hu'
      · obtain rfl : u.id = id := beq_iff_eq.mp hsel
        exact ⟨u, hu, rfl, .signIn⟩
      · exact ⟨u', hu, rfl, .same rfl rfl (by simp) (by simp)⟩
    | reset_login_failures id =>
      simp only [Stmt.run, UserStmt.run] at h
      split at h <;> cases h
      obtain ⟨u, hu, ⟨hsel, rfl⟩ | ⟨hsel, rfl⟩⟩ := Table.of_mem_updateWhere hu'
      · obtain rfl : u.id = id := beq_iff_eq.mp hsel
        exact ⟨u, hu, rfl, .clear rfl rfl⟩
      · refine ⟨u', hu, rfl, .same rfl rfl (fun heq => ?_) (by simp)⟩
        cases heq
        simp at hsel
    | record_login_failure id max_attempts lock_until =>
      have hdb' : db' = db.updateUser id (fun u =>
          { u with
            failed_login_attempts := u.failed_login_attempts + 1
            locked_until :=
              if min max_attempts i32Max ≤ u.failed_login_attempts + 1 then some lock_until
              else u.locked_until }) fun _ => rfl := by
        simp only [Stmt.run, UserStmt.run] at h
        (repeat' split at h) <;> cases h <;> rfl
      subst hdb'
      obtain ⟨u, hu, ⟨hsel, rfl⟩ | ⟨hsel, rfl⟩⟩ := Table.of_mem_updateWhere hu'
      · obtain rfl : u.id = id := beq_iff_eq.mp hsel
        exact ⟨u, hu, rfl, .count rfl rfl⟩
      · refine ⟨u', hu, rfl, .same rfl rfl (by simp) fun max_attempts' lock_until' heq => ?_⟩
        cases heq
        simp at hsel
    | update_password _ _ | mark_email_verified _ | set_status _ _ | delete_check _
    | delete_apply _ => exact (hq _ rfl).elim
  · rw [Stmt.users_eq (fun q' hq' => husers ⟨q', hq'⟩) h] at hu'
    exact ⟨u', hu', rfl, .same rfl rfl (fun heq => husers ⟨_, heq⟩)
      fun _ _ heq => husers ⟨_, heq⟩⟩

/-- No attempt removes an account. -/
theorem Stmt.accounts_kept {q : Stmt} {x : Except Failure q.Reply}
    (h : q.run P p c db = some (db', x)) (hq : ∀ q', q = .users q' → q'.ofAttempt) {id : Uuid}
    (hid : ∃ u ∈ db.users.rows, u.id = id) : ∃ u ∈ db'.users.rows, u.id = id := by
  have hupdate : ∀ {id' f hf}, ∃ u ∈ (db.updateUser id' f hf).users.rows, u.id = id := by
    intro id' f hf
    obtain ⟨u, hu, rfl⟩ := hid
    refine ⟨_, List.mem_map_of_mem hu, ?_⟩
    dsimp only
    split
    · exact hf u
    · rfl
  by_cases husers : ∃ q', q = .users q'
  · obtain ⟨q', rfl⟩ := husers
    cases q' with
    | find_by_email _ | find_by_id _ =>
      cases h
      exact hid
    | replace_password_hash _ _ | record_login_success _ | reset_login_failures _
    | record_login_failure _ _ _ =>
      simp only [Stmt.run, UserStmt.run] at h
      (repeat' split at h) <;> cases h <;> exact hupdate
    | update_password _ _ | mark_email_verified _ | set_status _ _ | delete_check _
    | delete_apply _ => exact (hq _ rfl).elim
  · rw [Stmt.users_eq (fun q' hq' => husers ⟨q', hq'⟩) h]
    exact hid

/-- The answer to a failure that is counted: the lock the account has now. -/
theorem UserStmt.run_record_login_failure {id : Uuid} {max_attempts : ℕ} {lock_until : Timestamp}
    {x : Except Failure (Option Timestamp)}
    (h : (UserStmt.record_login_failure id max_attempts lock_until).run P p db = some (db', x))
    {u' : UserRecord} (hu' : u' ∈ db'.users.rows) (hid : u'.id = id) : x = .ok u'.locked_until := by
  have hfind : db'.users.find? id = some u' := Table.find?_eq_some.mpr ⟨hu', hid⟩
  simp only [UserStmt.run] at h
  split at h
  · split at h
    · next u hsome =>
      cases h
      cases hsome.symm.trans hfind
      rfl
    · next hnone =>
      cases h
      cases hnone.symm.trans hfind
  · cases h

end Statements

/-! ### The invariant -/

instance (id : Uuid) : DecidablePred (countsFailure id) := fun e => by
  delta countsFailure
  split <;> infer_instance

/-- The failures it takes. -/
def AppConfig.threshold (config : AppConfig) : ℕ := min config.max_failed_login_attempts i32Max

/-- The account has had a lock for as long as the trace goes back, and nobody has cleared it. -/
def Untouched (id : Uuid) (log : List Event) : Prop :=
  ∀ e ∈ log, ¬ clearsFailures id e ∧
    ∀ u ∈ e.before.users.rows, u.id = id → u.locked_until ≠ none

/-- What has to hold of a request when it executes a statement: a failure is counted by an attempt
that has read the account, and has cleared the lock it has found, if any. The deadline comes from
the attempt's own look at the clock, which may be long past. -/
def LockPre (config : AppConfig) (p : ℕ) (s : State) : Stmt → Prop
  | .users (.record_login_failure id max_attempts lock_until) =>
    max_attempts = config.max_failed_login_attempts ∧
    (∃ now, lock_until = now + seconds config.account_lock_duration_seconds ∧
      ∃ e ∈ s.log, readsClock p now e) ∧
    ∃ row, row.id = id ∧ (∃ e ∈ s.log, readsAccount p row e) ∧
      (row.locked_until = none ∨ ∃ e ∈ s.log, clearsFailures id e)
  | .users q => q.ofAttempt
  | _ => True

theorem LockPre.ofAttempt {config : AppConfig} {p : ℕ} {s : State} {q : Stmt}
    (h : LockPre config p s q) : ∀ q', q = .users q' → q'.ofAttempt := by
  rintro q' rfl
  cases q' <;> first | exact trivial | exact h

/-- What the failures of an account and its lock have to do with what has happened. -/
structure LockInv (config : AppConfig) (id : Uuid) (s : State) : Prop where
  /-- Attempts delete nobody, so there is something to speak about. -/
  account : ∃ u ∈ s.db.users.rows, u.id = id
  read : ∀ e ∈ s.log, ∀ p row, readsAccount p row e → row ∈ e.before.users.rows
  clears : Throughout (fun e earlier => clearsFailures id e →
    (∀ row ∈ e.before.users.rows, row.id = id → row.is_locked e.before.clock = false) ∧
      ¬ FailureStands id earlier) s.log
  /-- There were enough failures for a lock, unless it is the one from the start. -/
  earned : ∀ u ∈ s.db.users.rows, u.id = id → u.locked_until ≠ none →
    config.threshold ≤ u.failed_login_attempts ∨ Untouched id s.log
  /-- What was counted without locking the account is still counted, and not enough. -/
  counted : ∀ later earlier, s.log = later ++ earlier → (∀ e ∈ later, ¬ locksOut id e) →
    later.countP (fun e => countsFailure id e) = 0 ∨
      ∀ u ∈ s.db.users.rows, u.id = id → u.locked_until = none ∧
        later.countP (fun e => countsFailure id e) ≤ u.failed_login_attempts ∧
        later.countP (fun e => countsFailure id e) < config.threshold
  deadline : ∀ e ∈ s.log, ∀ until_, locksUntil id until_ e →
    ∃ now, until_ = now + seconds config.account_lock_duration_seconds ∧
      ∃ e' ∈ s.log, readsClock e.pid now e'
  stays : ∀ e ∈ s.log, ∀ until_, locksUntil id until_ e → s.db.clock < until_ →
    ∀ u ∈ s.db.users.rows, u.id = id → ∃ until', u.locked_until = some until' ∧ until_ ≤ until'

section Effect

variable {P : Platform} {config : AppConfig} {id : Uuid} {p : ℕ} {r : Request} {q : Stmt}
  {x : Except Failure q.Reply} {s s' : State}

theorem not_countsFailure_error {e : Failure} : ¬ countsFailure id ⟨p, r, s.db, q, .error e⟩ := by
  intro hcounts
  unfold countsFailure at hcounts
  split at hcounts
  · next heq => cases heq
  · exact hcounts

/-- Who counts a failure has cleared the lock, or has seen that there was none. -/
theorem LockInv.not_untouched (hs : LockInv config id s) {max_attempts : ℕ}
    {lock_until : Timestamp}
    (hpre : LockPre config p s (.users (.record_login_failure id max_attempts lock_until))) :
    ¬ Untouched id s.log := by
  intro huntouched
  obtain ⟨-, -, row, hid, ⟨e, he, hread⟩, hnone | ⟨e', he', hclears⟩⟩ := hpre
  · exact (huntouched e he).2 row (hs.read e he p row hread) hid hnone
  · exact (huntouched e' he').1 hclears

/-- The failures after a statement of the regime, in terms of those before. -/
theorem failures_of_effect (hpre : LockPre config p s q)
    (h : (attemptsTimely id).Effect (store P) p r q s x s') {u' : UserRecord}
    (hu' : u' ∈ s'.db.users.rows) (hid : u'.id = id) :
    ∃ u ∈ s.db.users.rows, u.id = id ∧
      ((u'.locked_until = u.locked_until ∧ u'.failed_login_attempts = u.failed_login_attempts ∧
          ¬ countsFailure id ⟨p, r, s.db, q, x⟩ ∧ ¬ clearsFailures id ⟨p, r, s.db, q, x⟩) ∨
        (u'.locked_until = none ∧ u.is_locked s.db.clock = false ∧
          ¬ (u.locked_until = none ∧ u.failed_login_attempts ≠ 0) ∧
          ¬ countsFailure id ⟨p, r, s.db, q, x⟩) ∨
        (∃ max_attempts lock_until, q = .users (.record_login_failure id max_attempts lock_until)) ∧
          u'.failed_login_attempts = u.failed_login_attempts + 1 ∧
          countsFailure id ⟨p, r, s.db, q, x⟩ ∧
          ((u'.locked_until = u.locked_until ∧ u.failed_login_attempts + 1 < config.threshold) ∨
            ∃ until_, u'.locked_until = some until_ ∧ locksUntil id until_ ⟨p, r, s.db, q, x⟩ ∧
              config.threshold ≤ u.failed_login_attempts + 1 ∧ u.is_locked until_ = false)) := by
  subst hid
  cases h with
  | fail _ =>
    refine ⟨u', hu', rfl, .inl ⟨rfl, rfl, not_countsFailure_error, fun hclears => ?_⟩⟩
    unfold clearsFailures at hclears
    split at hclears
    · next heq => cases heq
    · exact hclears
  | run hadmits hrun =>
    obtain ⟨u, hu, hid, hbecome⟩ := Stmt.failures_origin hrun hpre.ofAttempt hu'
    refine ⟨u, hu, hid.symm, ?_⟩
    cases hbecome with
    | same hlock hfailed hclear hcount =>
      refine .inl ⟨hlock, hfailed, ?_, ?_⟩
      · intro hcounts
        unfold countsFailure at hcounts
        split at hcounts
        · next heq =>
          cases heq
          exact hcount _ _ (by rw [hcounts, hid])
        · exact hcounts
      · intro hclears
        unfold clearsFailures at hclears
        split at hclears
        · next heq =>
          cases heq
          exact hclear (by rw [hclears, hid])
        · exact hclears
    | clear hlock hfailed =>
      have hnot : ¬ (u.is_locked s.db.clock = true ∨
          (u.locked_until = none ∧ u.failed_login_attempts ≠ 0)) :=
        fun hbad => hadmits.2 ⟨hid.symm, u, hu, hid.symm, hbad⟩
      exact .inr (.inl ⟨hlock, Bool.eq_false_iff.mpr fun hlocked => hnot (.inl hlocked),
        fun hbad => hnot (.inr hbad), not_false⟩)
    | @count max_attempts lock_until hlock hfailed =>
      have hx := UserStmt.run_record_login_failure (P := P) hrun hu' hid
      subst hx
      refine .inr (.inr ⟨⟨_, _, by rw [hid]⟩, hfailed, hid.symm, ?_⟩)
      obtain ⟨rfl, -⟩ := hpre
      by_cases henough : config.threshold ≤ u.failed_login_attempts + 1
      · right
        rw [AppConfig.threshold] at henough
        rw [if_pos henough] at hlock
        have hnot : ¬ (lock_until ≤ s.db.clock ∨ u.is_locked lock_until = true) :=
          fun hbad => hadmits.2 ⟨hid.symm, u, hu, hid.symm, henough, hbad⟩
        refine ⟨lock_until, hlock, ?_, henough, Bool.eq_false_iff.mpr fun hlocked =>
          hnot (.inr hlocked)⟩
        rw [hlock]
        exact ⟨hid.symm, rfl, rfl, Nat.lt_of_not_le fun hle => hnot (.inl hle)⟩
      · left
        rw [AppConfig.threshold] at henough
        rw [if_neg henough] at hlock
        exact ⟨hlock, Nat.lt_of_not_le henough⟩
    | signIn => exact (hadmits.1.2 hid.symm).elim

theorem LockInv.read_effect (hs : LockInv config id s)
    (h : (attemptsTimely id).Effect (store P) p r q s x s') :
    ∀ e ∈ s'.log, ∀ p row, readsAccount p row e → row ∈ e.before.users.rows := by
  rw [h.log_eq]
  intro e he p' row hread
  rcases List.mem_cons.mp he with rfl | he
  · unfold readsAccount at hread
    split at hread
    · next heq =>
      cases heq
      obtain ⟨-, rfl⟩ := hread
      cases h with
      | run _ hrun =>
        simp only [store, Stmt.run, UserStmt.run, Option.some.injEq, Prod.mk.injEq,
          Except.ok.injEq] at hrun
        exact List.mem_of_find?_eq_some hrun.2
    · exact hread.elim
  · exact hs.read e he p' row hread

/-- **Every lock was earned**, or has been there from the start. -/
theorem LockInv.earned_effect (hs : LockInv config id s) (hpre : LockPre config p s q)
    (h : (attemptsTimely id).Effect (store P) p r q s x s') :
    ∀ u ∈ s'.db.users.rows, u.id = id → u.locked_until ≠ none →
      config.threshold ≤ u.failed_login_attempts ∨ Untouched id s'.log := by
  intro u' hu' hid hlocked
  obtain ⟨u, hu, huid, ⟨hlock, hfailed, -, hclears⟩ | ⟨hlock, -⟩ |
    ⟨⟨max_attempts, lock_until, rfl⟩, hfailed, -, ⟨hlock, -⟩ | ⟨until_, -, -, henough, -⟩⟩⟩ :=
      failures_of_effect hpre h hu' hid
  · rw [hlock] at hlocked
    rw [hfailed, h.log_eq]
    refine (hs.earned u hu huid hlocked).imp_right fun huntouched e he => ?_
    rcases List.mem_cons.mp he with rfl | he
    · refine ⟨hclears, fun u₀ hu₀ hid₀ => ?_⟩
      rwa [s.db.users.eq_of_key_eq hu₀ hu (hid₀.trans huid.symm)]
    · exact huntouched e he
  · exact absurd hlock hlocked
  · rw [hlock] at hlocked
    rw [hfailed]
    rcases hs.earned u hu huid hlocked with henough | huntouched
    · exact .inl (Nat.le_succ_of_le henough)
    · exact absurd huntouched (hs.not_untouched hpre)
  · rw [hfailed]
    exact .inl henough

/-- **Failures add up**: those that were counted since any moment without locking the account are
in the counter. -/
theorem LockInv.counted_effect (hs : LockInv config id s) (hpre : LockPre config p s q)
    (h : (attemptsTimely id).Effect (store P) p r q s x s') :
    ∀ later earlier, s'.log = later ++ earlier → (∀ e ∈ later, ¬ locksOut id e) →
      later.countP (fun e => countsFailure id e) = 0 ∨
        ∀ u ∈ s'.db.users.rows, u.id = id → u.locked_until = none ∧
          later.countP (fun e => countsFailure id e) ≤ u.failed_login_attempts ∧
          later.countP (fun e => countsFailure id e) < config.threshold := by
  rw [h.log_eq]
  intro later earlier heq hnone
  cases later with
  | nil => exact .inl rfl
  | cons e later =>
    rw [List.cons_append, List.cons.injEq] at heq
    obtain ⟨rfl, hlog⟩ := heq
    have hbefore := hs.counted later earlier hlog fun e he => hnone e (List.mem_cons_of_mem _ he)
    rw [List.countP_cons]
    by_cases hzero : later.countP (fun e => countsFailure id e) = 0 ∧
        ¬ countsFailure id ⟨p, r, s.db, q, x⟩
    · left
      rw [hzero.1, if_neg (by simpa using hzero.2)]
    right
    intro u' hu' hid
    obtain ⟨u, hu, huid, ⟨hlock, hfailed, hcounts, -⟩ | ⟨-, -, hclear, hcounts⟩ |
      ⟨⟨max_attempts, lock_until, rfl⟩, hfailed, hcounts,
        ⟨hlock, hless⟩ | ⟨until_, -, hlocks, -⟩⟩⟩ :=
        failures_of_effect hpre h hu' hid
    · have hold := hbefore.resolve_left fun h0 => hzero ⟨h0, hcounts⟩
      rw [if_neg (by simpa using hcounts), hlock, hfailed, Nat.add_zero]
      exact hold u hu huid
    · obtain ⟨hlock, hle, -⟩ := hbefore.resolve_left (fun h0 => hzero ⟨h0, hcounts⟩) u hu huid
      refine (hclear ⟨hlock, fun h0 => hzero ⟨?_, hcounts⟩⟩).elim
      omega
    · have hunlocked : u.locked_until = none := by
        by_contra hlocked
        rcases hs.earned u hu huid hlocked with henough | huntouched
        · omega
        · exact hs.not_untouched hpre huntouched
      have hle : later.countP (fun e => countsFailure id e) ≤ u.failed_login_attempts := by
        rcases hbefore with h0 | hold
        · omega
        · exact (hold u hu huid).2.1
      rw [if_pos (by simpa using hcounts), hlock, hfailed]
      exact ⟨hunlocked, Nat.succ_le_succ hle, by omega⟩
    · exact (hnone _ List.mem_cons_self hlocks.locksOut).elim

/-- A lock carries the deadline its attempt has computed. -/
theorem LockInv.deadline_effect (hs : LockInv config id s) (hpre : LockPre config p s q)
    (h : (attemptsTimely id).Effect (store P) p r q s x s') :
    ∀ e ∈ s'.log, ∀ until_, locksUntil id until_ e →
      ∃ now, until_ = now + seconds config.account_lock_duration_seconds ∧
        ∃ e' ∈ s'.log, readsClock e.pid now e' := by
  intro e he until_ hlocks
  rw [h.log_eq] at he
  rcases List.mem_cons.mp he with rfl | he
  · unfold locksUntil at hlocks
    split at hlocks
    · next heq =>
      cases heq
      obtain ⟨-, -, rfl, -⟩ := hlocks
      obtain ⟨-, ⟨now, hnow, e', he', hread⟩, -⟩ := hpre
      exact ⟨now, hnow, e', h.mem he', hread⟩
    · exact hlocks.elim
  · obtain ⟨now, hnow, e', he', hread⟩ := hs.deadline e he until_ hlocks
    exact ⟨now, hnow, e', h.mem he', hread⟩

/-- **Locks last**: nothing replaces a lock by an earlier one. -/
theorem LockInv.stays_effect (hs : LockInv config id s) (hpre : LockPre config p s q)
    (h : (attemptsTimely id).Effect (store P) p r q s x s') :
    ∀ e ∈ s'.log, ∀ until_, locksUntil id until_ e → s'.db.clock < until_ →
      ∀ u ∈ s'.db.users.rows, u.id = id →
        ∃ until', u.locked_until = some until' ∧ until_ ≤ until' := by
  intro e he until_ hlocks hclock u' hu' hid
  rw [clock_of_effect h] at hclock
  rw [h.log_eq] at he
  obtain ⟨u, hu, huid, hcases⟩ := failures_of_effect hpre h hu' hid
  rcases List.mem_cons.mp he with rfl | he
  · -- The lock that was just written is the one the account has.
    have hcounts : countsFailure id ⟨p, r, s.db, q, x⟩ := by
      unfold locksUntil at hlocks
      split at hlocks
      · next heq =>
        cases heq
        exact hlocks.1
      · exact hlocks.elim
    cases h with
    | fail _ => exact (not_countsFailure_error hcounts).elim
    | run hadmits hrun =>
      unfold locksUntil at hlocks
      split at hlocks
      · next heq =>
        cases heq
        obtain ⟨rfl, rfl, -, -⟩ := hlocks
        have hx := UserStmt.run_record_login_failure (P := P) hrun hu' hid
        exact ⟨_, (Except.ok.inj hx).symm, le_refl _⟩
      · exact hlocks.elim
  · obtain ⟨until', hlocked, hle⟩ := hs.stays e he until_ hlocks hclock u hu huid
    rcases hcases with ⟨hlock, -⟩ | ⟨-, hexpired, -⟩ | ⟨-, -, -,
      ⟨hlock, -⟩ | ⟨until'', hlock, -, -, hlater⟩⟩
    · exact ⟨until', hlock.trans hlocked, hle⟩
    · -- A lock in force is not cleared.
      have hin : u.is_locked s.db.clock = true := by
        rw [UserRecord.is_locked, hlocked]
        exact decide_eq_true (lt_of_lt_of_le hclock hle)
      rw [hexpired] at hin
      cases hin
    · exact ⟨until', hlock.trans hlocked, hle⟩
    · refine ⟨until'', hlock, ?_⟩
      rw [UserRecord.is_locked, hlocked] at hlater
      have hnot : ¬ until'' < until' := of_decide_eq_false hlater
      exact le_trans hle (Nat.le_of_not_lt hnot)

/-- A failure that stands is in the counter, and there is no lock. -/
theorem LockInv.of_failureStands (hs : LockInv config id s) (h : FailureStands id s.log) :
    ∃ u ∈ s.db.users.rows, u.id = id ∧ u.locked_until = none ∧ u.failed_login_attempts ≠ 0 := by
  obtain ⟨later, e, earlier, hlog, ⟨hcounts, hlocks⟩, hlater⟩ := since_iff.mp h
  have hsplit : s.log = (later ++ [e]) ++ earlier := by rw [hlog, List.append_assoc]; rfl
  have hpos : 0 < (later ++ [e]).countP (fun e => countsFailure id e) :=
    List.countP_pos_iff.mpr ⟨e, by simp, by simpa using hcounts⟩
  obtain ⟨u, hu, hid⟩ := hs.account
  have hcounted := hs.counted _ _ hsplit fun e' he' => by
    rcases List.mem_append.mp he' with he' | he'
    · exact hlater e' he'
    · rwa [List.mem_singleton.mp he']
  obtain ⟨hlock, hle, -⟩ := hcounted.resolve_left (by omega) u hu hid
  exact ⟨u, hu, hid, hlock, by omega⟩

theorem LockInv.clears_effect (hs : LockInv config id s)
    (h : (attemptsTimely id).Effect (store P) p r q s x s') :
    Throughout (fun e earlier => clearsFailures id e →
      (∀ row ∈ e.before.users.rows, row.id = id → row.is_locked e.before.clock = false) ∧
        ¬ FailureStands id earlier) s'.log := by
  rw [h.log_eq]
  refine ⟨fun hclears => ?_, hs.clears⟩
  unfold clearsFailures at hclears
  split at hclears
  · next heq =>
    cases heq
    cases h with
    | run hadmits hrun =>
      constructor
      · intro row hrow hid
        exact Bool.eq_false_iff.mpr fun hlocked => hadmits.2 ⟨hclears, row, hrow, hid, .inl hlocked⟩
      · intro hstands
        obtain ⟨u, hu, hid, hlock, hne⟩ := hs.of_failureStands hstands
        exact hadmits.2 ⟨hclears, u, hu, hid, .inr ⟨hlock, hne⟩⟩
  · exact hclears.elim

/-- Every statement of the regime keeps the invariant. The columns of an account are changed by
the statements of an attempt only, and each of these either counts a failure, locks the account or
clears both; what the log says of the series of failures follows the same three cases. -/
theorem LockInv.effect (hs : LockInv config id s) (hpre : LockPre config p s q)
    (h : (attemptsTimely id).Effect (store P) p r q s x s') : LockInv config id s' where
  account := by
    cases h with
    | fail _ => exact hs.account
    | run _ hrun => exact Stmt.accounts_kept hrun hpre.ofAttempt hs.account
  read := hs.read_effect h
  clears := hs.clears_effect h
  earned := hs.earned_effect hpre h
  counted := hs.counted_effect hpre h
  deadline := hs.deadline_effect hpre h
  stays := hs.stays_effect hpre h

end Effect

section Invariant

variable {config : AppConfig} {id : Uuid} {s : State}

theorem LockInv.pass {n : ℕ} (hs : LockInv config id s) :
    LockInv config id { s with db := { s.db with clock := s.db.clock + n } } :=
  { hs with
    stays := fun e he until_ hlocks hclock => hs.stays e he until_ hlocks
      (Nat.lt_of_le_of_lt (Nat.le_add_right _ n) hclock) }

theorem LockInv.start {db : Database} (hid : ∃ u ∈ db.users.rows, u.id = id) :
    LockInv config id (World.start db).shared where
  account := hid
  read := fun e he => absurd he List.not_mem_nil
  clears := throughout_nil
  earned := fun _ _ _ _ => .inr fun e he => absurd he List.not_mem_nil
  counted := by
    intro later earlier heq _
    left
    rw [(List.append_eq_nil_iff.mp heq.symm).1]
    rfl
  deadline := fun e he => absurd he List.not_mem_nil
  stays := fun e he => absurd he List.not_mem_nil

/-- Attempts of different names that have completed have been counted one by one. -/
theorem length_le_countP {later : List Event} {attempts : List ℕ} (hnodup : attempts.Nodup)
    (hcounts : ∀ p ∈ attempts, ∃ e ∈ later, e.pid = p ∧ countsFailure id e) :
    attempts.length ≤ later.countP (fun e => countsFailure id e) := by
  have hsub : attempts ⊆ (later.filter fun e => countsFailure id e).map (·.pid) := by
    intro p hp
    obtain ⟨e, he, rfl, hcounts⟩ := hcounts p hp
    exact List.mem_map_of_mem (List.mem_filter.mpr ⟨he, by simpa using hcounts⟩)
  have hle := (List.subperm_of_subset hnodup hsub).length_le
  rwa [List.length_map, ← List.countP_eq_length_filter] at hle

/-- The invariant says that the lockout holds. -/
theorem LockInv.lockoutHolds (hs : LockInv config id s)
    (hmax : 0 < config.max_failed_login_attempts) :
    LockoutHolds config id s where
  clears := hs.clears
  enough := by
    intro later earlier hlog attempts hnodup hattempts hlength
    by_contra hnone
    have hcount := length_le_countP hnodup fun p hp => (hattempts p hp).2
    have hle : config.threshold ≤ config.max_failed_login_attempts := Nat.min_le_left _ _
    obtain ⟨u, hu, hid⟩ := hs.account
    rcases hs.counted later earlier hlog fun e he hlocks => hnone ⟨e, he, hlocks⟩ with h0 | hold
    · omega
    · have hless := (hold u hu hid).2.2
      omega
  stays := by
    intro e he until_ hlocks
    refine ⟨hs.deadline e he until_ hlocks, fun hclock u hu hid => ?_⟩
    obtain ⟨until', hlocked, hle⟩ := hs.stays e he until_ hlocks hclock u hu hid
    rw [UserRecord.is_locked, hlocked]
    exact decide_eq_true (lt_of_lt_of_le hclock hle)

end Invariant

/-- The logic of lockouts. -/
def lockLogic (d : Deployment) (id : Uuid) : Logic (attemptsTimely id) (store d.platform) where
  inv := LockInv d.config id
  rely _ _ _ := True
  pre p _ q s := LockPre d.config p s q
  rely_refl _ _ := trivial
  rely_trans _ _ := trivial
  sound hs hpre h := ⟨hs.effect hpre h, fun _ _ => trivial⟩
  stop_sound _ hs := ⟨{ hs with }, fun _ _ => trivial⟩
  pass_sound hs := ⟨hs.pass, fun _ => trivial⟩

/-! ### The scripts -/

section Scripts

variable {d : Deployment} {id : Uuid} {p : ℕ} {r : Request} {s : State} {ε α : Type}

/-- Code that counts no failure. -/
theorem wp_of_lockPre {x : Code ε α} (hx : x.Issues fun q => ∀ p s, LockPre d.config p s q) :
    (lockLogic d id).wp p r x (fun _ _ => True) s :=
  Logic.wp_of_does (fun q => ∀ p s, LockPre d.config p s q) (fun _ _ => True) (fun _ => True)
    (fun _ => True) (fun _ _ => trivial) (fun hq _ _ => hq _ _)
    (fun _ _ _ _ _ => ⟨trivial, trivial⟩) (fun _ _ => trivial) hx.does trivial

theorem LockPre.of_onSessions {config : AppConfig} {q : Stmt} (hq : q.onSessions) (p : ℕ)
    (s : State) : LockPre config p s q := by
  cases q with
  | users q =>
    cases q with
    | find_by_id id => trivial
    | _ => exact hq.elim
  | _ => trivial

/-- **A wrong password** is counted after the lock that was found is cleared. -/
theorem wp_count_failure {user : UserRecord} {now : Timestamp} (hs : LockInv d.config id s)
    (hread : ∃ e ∈ s.log, readsAccount p user e) :
    (lockLogic d id).wp p r (IdentityService.count_failure d user now) (fun _ _ => True) s := by
  obtain ⟨e₀, he₀, hread⟩ := hread
  have hclear : (lockLogic d id).wp p r
      (Script.when user.locked_until.isSome (ask (.users (.reset_login_failures user.id))) :
        Code IdentityError Unit)
      (fun y s' => y = .ok () → e₀ ∈ s'.log ∧
        (user.locked_until = none ∨ ∃ e ∈ s'.log, clearsFailures user.id e)) s := by
    refine Logic.wp_when (fun _ => ?_) fun hnone s' he' _ => ?_
    · refine Logic.wp_query fun s₁ he₁ => ⟨trivial, fun _ s₂ hx₂ _ s₃ he₃ _ => ?_,
        fun _ _ _ _ _ _ => nofun⟩
      refine ⟨he₃.others.mem (hx₂.mem (he₁.others.mem he₀)), .inr ?_⟩
      exact ⟨_, he₃.others.mem hx₂.mem_self, rfl⟩
    · exact ⟨he'.others.mem he₀, .inl (Option.not_isSome_iff_eq_none.mp (by simp [hnone]))⟩
  refine Logic.wp_bind hs hclear (fun _ s₁ _ h₁ => ?_) fun _ _ _ _ => trivial
  obtain ⟨he₁, hcleared⟩ := h₁ rfl
  refine Logic.wp_query_bind fun s₂ he₂ => ⟨trivial, fun at_failure s₃ hx₃ _ => ?_,
    fun _ _ _ _ _ _ => trivial⟩
  refine wp_expires_at_bind (fun _ => ?_) fun _ _ _ => trivial
  have hlater : ∀ {s₄}, (lockLogic d id).Env p s₃ s₄ → ∀ e ∈ s₁.log, e ∈ s₄.log :=
    fun he₄ e he => he₄.others.mem (hx₃.mem (he₂.others.mem he))
  refine Logic.wp_query_bind fun s₄ he₄ => ⟨⟨rfl, ⟨at_failure, rfl, ?_⟩, user, rfl, ?_, ?_⟩,
    fun locked s₅ _ _ => ?_, fun _ _ _ _ _ _ => trivial⟩
  · exact ⟨_, he₄.others.mem hx₃.mem_self, rfl, rfl⟩
  · exact ⟨e₀, hlater he₄ e₀ he₁, hread⟩
  · refine hcleared.imp_right ?_
    rintro ⟨e, he, hclears⟩
    exact ⟨e, hlater he₄ e he, hclears⟩
  · split <;> exact fun _ _ => trivial

theorem upgrade_password_hash_lockPre (user_id : Uuid) (password : String) :
    (IdentityService.upgrade_password_hash d user_id password).Issues
      fun q => ∀ p s, LockPre d.config p s q := by
  refine Script.Issues.bind (Script.Issues.result ((Script.issues_query fun _ _ => trivial).bind
    fun _ => Script.issues_ret)) fun y => ?_
  cases y with
  | error e => trivial
  | ok hash => exact (Script.issues_attempt fun _ _ => trivial).bind fun _ => Script.issues_ret

theorem wp_verify_credentials (email password : String) :
    (lockLogic d id).wp p r (IdentityService.verify_credentials d email password)
      (fun _ _ => True) s := by
  refine Logic.wp_query_bind fun s₁ _ => ⟨trivial, fun found s₂ hx₂ _ => ?_,
    fun _ _ _ _ _ _ => trivial⟩
  cases found with
  | none => exact fun _ _ => trivial
  | some user =>
    have hread : ∃ e ∈ s₂.log, readsAccount p user e := ⟨_, hx₂.mem_self, rfl, rfl⟩
    obtain ⟨e, he, hread⟩ := hread
    refine Logic.wp_query_bind fun s₃ he₃ => ⟨trivial, fun now s₄ hx₄ hs₄ => ?_,
      fun _ _ _ _ _ _ => trivial⟩
    split
    · exact fun _ _ => trivial
    split
    · exact fun _ _ => trivial
    split
    · exact wp_count_failure hs₄ ⟨e, hx₄.mem (he₃.others.mem he), hread⟩
    split
    · exact fun _ _ => trivial
    · refine wp_of_lockPre ((Script.Issues.when fun _ => upgrade_password_hash_lockPre _ _).bind
        fun _ => (Script.issues_query fun _ _ => trivial).bind fun _ => Script.issues_ret)

theorem wp_login (email password : String) (client : ClientInfo) (hs : LockInv d.config id s) :
    (lockLogic d id).wp p r (AuthService.login d email password client) (fun _ _ => True) s := by
  have hverify : (lockLogic d id).wp p r
      (Script.mapError .identity (IdentityService.verify_credentials d email password) :
        Code AuthError UserRecord) (fun _ _ => True) s :=
    Logic.wp_mapError (wp_verify_credentials email password)
  refine Logic.wp_bind hs hverify (fun user s₁ _ _ => wp_of_lockPre ?_) fun _ _ _ _ => trivial
  refine Script.Issues.mono (P := Stmt.onSessionRows) ?_ fun q hq =>
    LockPre.of_onSessions hq.onSessions
  exact (AuthService.start_session_issues user.id client).bind fun _ =>
    (IdentityService.public_user_issues user).mapError.bind fun _ => Script.issues_ret

end Scripts

variable {d : Deployment} {id : Uuid} {db : Database} {w : World}

/-- **No failure is forgotten and no lock cut short**, in every run of wrong attempts in which the
statements on failures are timely. -/
theorem lockoutHolds_of_reaches (hmax : 0 < d.config.max_failed_login_attempts)
    (hid : ∃ u ∈ db.users.rows, u.id = id)
    (h : Reaches d (attemptsTimely id) (World.start db) w) : LockoutHolds d.config id w.shared := by
  have hspec : ∀ p r s, (attemptsTimely id).spawns r → (lockLogic d id).inv s →
      (∀ e ∈ s.log, e.pid ≠ p) →
      (lockLogic d id).wp p r (Request.code d r) (fun _ _ => True) s := by
    intro p r s hr hs _
    cases r with
    | login email password client => exact wp_login email password client hs
    | _ => exact hr.elim
  have hsafe : (lockLogic d id).Safe (fun _ _ _ _ => True) w :=
    Logic.safe_of_reaches hspec (.start (LockInv.start hid)) h
  exact hsafe.inv.lockoutHolds hmax

/-! ### Two attempts on an expired lock

Both find the lock run out, so both take their failure for the first of a new series and clear the
columns before they count. One of them clears late, and wipes out what the other has counted by
then. -/

instance (id : Uuid) : DecidablePred (clearsFailures id) := fun e => by
  delta clearsFailures
  split <;> infer_instance

instance (id : Uuid) : DecidablePred (locksOut id) := fun e => by
  delta locksOut
  split <;> infer_instance

instance (id : Uuid) : DecidablePred (FailureStands id) :=
  inferInstanceAs (DecidablePred (Since _ _))

instance (id : Uuid) : DecidablePred (signsIn id) := fun q => by
  delta signsIn
  split <;> infer_instance

instance (id : Uuid) (db : Database) : DecidablePred (untimely id db) := fun q => by
  delta untimely
  split <;> infer_instance

instance : DecidablePred Request.isLogin := fun r => by
  induction r using Request.casesOn <;> (delta Request.isLogin; infer_instance)

/-- The lock of account 8 has expired. -/
def expiredLock : Database :=
  { Database.sample with
    users := Table.empty.insertNew { UserRecord.sample 8 "ada@example.org" with
      failed_login_attempts := 5, locked_until := some 10 }
    clock := 10 }

/-- One attempt has read the account; another clears the lock and counts its failure; the first one
clears. -/
def twoAttempts : List Step :=
  [.spawn 0 (.login "ada@example.org" "guess" ⟨none, none⟩), .step 0 {}, .step 0 {},
    .spawn 1 (.login "ada@example.org" "guess" ⟨none, none⟩), .step 1 {}, .step 1 {}, .step 1 {},
    .step 1 {}, .step 1 {}]

/-- **A failure is forgotten**: the first attempt clears what the second has counted. -/
theorem not_lockoutHolds : ¬ ∀ w, Reaches .sample (wrongAttempts 8) (World.start expiredLock) w →
    LockoutHolds .sample 8 w.shared := by
  intro hall
  have hclears := (hall _ (Deployment.sample.reaches_play _ (twoAttempts ++ [.step 0 {}])
    expiredLock)).clears
  revert hclears
  decide +kernel

/-- Five attempts, one after the other, after the lock has expired. -/
def fiveAttempts : List Step :=
  [.spawn 1 (.login "ada@example.org" "guess" ⟨none, none⟩), .step 1 {}, .step 1 {}, .step 1 {},
    .step 1 {}, .step 1 {}] ++ [2, 3, 4, 5].flatMap fun p =>
    .spawn p (.login "ada@example.org" "guess" ⟨none, none⟩) :: List.replicate 4 (.step p {})

/-- The first clears the old lock, the last locks the account anew. -/
theorem lockoutHolds_fiveAttempts :
    let s := (Deployment.sample.play (attemptsTimely 8) fiveAttempts expiredLock).shared
    (∃ e ∈ s.log, clearsFailures 8 e) ∧ (∃ e ∈ s.log, locksOut 8 e) ∧
      LockoutHolds .sample 8 s :=
  ⟨by decide +kernel, by decide +kernel, lockoutHolds_of_reaches (d := .sample) (by decide)
    (by decide) (Deployment.sample.reaches_play (attemptsTimely 8) fiveAttempts expiredLock)⟩

end SubmitSnap
