import SubmitSnap.Identity.PasswordHash
import SubmitSnap.Interleave.Alone

/-!
# Lockout, one call after the other

When the calls on an account do not overlap, its two lockout columns are an automaton over what has
been called: wrong passwords form a series, the last one of a full series locks the account, and a
call after the lock has run out begins a new series. The counter is a 32-bit column, so a series is
full after at most `i32::MAX` failures, however many are configured.

The deadline of a lock is computed before the failure is counted, whether or not it will be needed.
With a duration so long that there is no such moment the code panics there, and the wrong password
is never counted: a call of its own kind, which may still begin a new series but adds nothing to
it.

## The argument

`failureSeries` is the specification, and it is written without a look at the columns: the tested
failures since whatever cleared them last. `Tracks` is the simulation relation. The counter is the
length of the series, the deadline is its last failure plus the duration if the series is full and
absent otherwise, and no series is longer than full. Each of the calls, run to its end on its own,
takes columns that track a series to columns that track the next one (`Tracks.call`); induction
over the calls does the rest.

The one place where the code does something that the specification seems not to is a full series:
while the lock is in force nothing is tested, so nothing is counted; once it has run out, the next
attempt clears the columns before it counts. In the series this is one clause of `clears`. A
series is never longer than full because of the same two facts.

A panic fits in without a case of its own in the relation. It comes after the clearing and before
the counting, so it may empty a series and adds nothing to it.

## Main definitions

* `failureSeries` — the wrong passwords that count, given what has been called.
* `Calls` — what the calls make of a database, one after the other.

## Main results

* `refusesUntested_iff` — a call is refused before the password is tested exactly when the last
  failure of a full series is recent.
* `not_refusesUntested_iff` — a limit beyond the counter.
-/

namespace SubmitSnap

open Interleave
open Interleave.Script (ret when mapError result)

/-! ### The automaton -/

/-- What is called, as far as the failures are concerned. -/
inductive CallKind where
  | wrong
  /-- A wrong password at a time from which no lock could be dated: the code panics before it
  counts. -/
  | panics
  /-- The right password, of an account that may sign in. -/
  | signIn
  /-- The right password, of an account whose address has to be verified first. -/
  | unverified
  | unlock
  | passwordUpdate
  | verification
  deriving DecidableEq

/-- The series is full, and its last failure less than `D` ago. -/
def lockedOut (N D : ℕ) (failures : List Timestamp) (t : Timestamp) : Bool :=
  failures[N - 1]?.any fun t₀ => t < t₀ + D

/-- The series is full, and its lock has run out. -/
def lockRanOut (N D : ℕ) (failures : List Timestamp) (t : Timestamp) : Bool :=
  failures[N - 1]?.any fun t₀ => t₀ + D ≤ t

namespace CallKind

/-- Whether the failures so far do not matter any more. -/
def clears (N D : ℕ) (failures : List Timestamp) (t : Timestamp) : CallKind → Bool
  | unlock | passwordUpdate => true
  | signIn => !lockedOut N D failures t
  | wrong | panics => lockRanOut N D failures t
  | unverified | verification => false

/-- Whether the call is a failure that counts. -/
def counts (N D : ℕ) (failures : List Timestamp) (t : Timestamp) : CallKind → Bool
  | wrong => !lockedOut N D failures t
  | _ => false

end CallKind

/-- The wrong passwords that have been tested since the last clearing event, with their times, the
first one first. The calls come newest first. -/
def failureSeries (N D : ℕ) : List (Timestamp × CallKind) → List Timestamp
  | [] => []
  | (t, kind) :: earlier =>
    let failures := failureSeries N D earlier
    (if kind.clears N D failures t then [] else failures) ++
      if kind.counts N D failures t then [t] else []

/-! ### The calls -/

/-- The calls on one account. -/
inductive AccountCall where
  | verify_credentials (email password : String)
  | unlock_account
  | update_password (password_hash : String)
  | mark_email_verified

/-- The code of a call on account `id`. -/
def AccountCall.code (d : Deployment) (id : Uuid) : AccountCall → Code IdentityError Unit
  | verify_credentials email password => do
    let _ ← IdentityService.verify_credentials d email password
    return ()
  | unlock_account => do
    let _ ← IdentityService.unlock_account id
    return ()
  | update_password password_hash => ask (.users (.update_password id password_hash))
  | mark_email_verified => ask (.users (.mark_email_verified id))

/-- What a call is, given the row of the account and the time. -/
def AccountCall.kind (d : Deployment) (row : UserRecord) (t : Timestamp) : AccountCall → CallKind
  | verify_credentials _ password =>
    if !d.platform.argon2_verify password row.password_hash then
      if (deadline t d.config.account_lock_duration_seconds).isSome then .wrong else .panics
    else if d.config.require_email_verification && !row.is_email_verified then .unverified
    else .signIn
  | unlock_account => .unlock
  | update_password _ => .passwordUpdate
  | mark_email_verified => .verification

/-- The account with that address, as signing in looks it up. -/
def Database.accountBy (P : Platform) (db : Database) (address : String) : Option UserRecord :=
  db.users.rows.find? fun u => P.lower u.email == address

/-- What calls on account `id` make of a database, one after the other. Time does not pass during a
call. The calls come newest first, each with its time. -/
inductive Calls (d : Deployment) (id : Uuid) (address : String) (db₀ : Database) :
    List (Timestamp × CallKind) → Database → Prop where
  | nil : Calls d id address db₀ [] db₀
  | call {calls : List (Timestamp × CallKind)} {db db' : Database} {t : Timestamp} {p : ℕ}
      {call : AccountCall} {row : UserRecord} {cs rest : ℕ → Choice}
      {y : Except IdentityError Unit} (h : Calls d id address db₀ calls db) (htime : db.clock ≤ t)
      (hrow : db.accountBy d.platform address = some row)
      (haddress : ∀ email password, call = .verify_credentials email password →
        normalize_email d.platform email = address)
      (hrun : (store d.platform).alone p (call.code d id) cs { db with clock := t } =
        some (y, db', rest)) :
      Calls d id address db₀ ((t, call.kind d row t) :: calls) db'

/-- An enabled account without failures, and no transaction in progress. -/
structure StartsClean (d : Deployment) (id : Uuid) (address : String) (db : Database) : Prop where
  account : ∃ row, db.accountBy d.platform address = some row ∧ row.id = id ∧
    row.status ≠ .disabled ∧ row.failed_login_attempts = 0 ∧ row.locked_until = none
  unlocked : db.locks = []

/-- A call is answered `AccountLocked`, and nothing is written: no failure is counted, so the
password has not been tested. -/
def RefusesUntested (d : Deployment) (p : ℕ) (email password : String) (cs : ℕ → Choice)
    (db : Database) : Prop :=
  ∃ rest, (store d.platform).alone p (IdentityService.verify_credentials d email password) cs db =
    some (.error .account_locked, db, rest)

/-- How many failures lock an account, as the counter has it. -/
def Deployment.max_attempts (d : Deployment) : ℕ := min d.config.max_failed_login_attempts i32Max

/-- How long a lock lasts. -/
def Deployment.lock_duration (d : Deployment) : ℕ :=
  seconds d.config.account_lock_duration_seconds

/-- The columns say what the automaton says. Only the last failure of a full series has left a
deadline, and a series that is not full has none; hence one equation for `locked_until`, which
reads the entry that fills the series. -/
structure Tracks (d : Deployment) (id : Uuid) (address : String) (failures : List Timestamp)
    (db : Database) : Prop where
  account : ∃ row, db.accountBy d.platform address = some row ∧ row.id = id ∧
    row.status ≠ .disabled ∧ row.failed_login_attempts = failures.length ∧
    row.locked_until = failures[d.max_attempts - 1]?.map (· + d.lock_duration)
  unlocked : db.locks = []
  bounded : failures.length ≤ d.max_attempts

section Columns

variable {d : Deployment} {p : ℕ} {id : Uuid} {address : String} {failures : List Timestamp}
  {db : Database} {row : UserRecord}

/-- What an update by key makes of the account. -/
theorem Database.accountBy_updateUser {P : Platform} {f : UserRecord → UserRecord}
    {hf : ∀ u, (f u).id = u.id} (hemail : ∀ u, (f u).email = u.email) :
    (db.updateUser id f hf).accountBy P address = (db.accountBy P address).map fun u =>
      if u.id == id then { f u with updated_at := db.clock } else u := by
  unfold Database.accountBy
  simp only [Database.updateUser, Table.updateWhere, List.find?_map]
  refine congrArg (Option.map _) (congrArg (db.users.rows.find? ·) (funext fun u => ?_))
  change (P.lower (if u.id == id then _ else u : UserRecord).email == address) = _
  split
  · exact congrArg (P.lower · == address) (hemail u)
  · rfl

/-- The columns do not depend on the time. -/
theorem Tracks.at_clock (h : Tracks d id address failures db) (t : Timestamp) :
    Tracks d id address failures { db with clock := t } :=
  ⟨h.account, h.unlocked, h.bounded⟩

/-- The row the account is looked up by is the row of its identifier. -/
theorem Tracks.find? (h : Tracks d id address failures db)
    (hrow : db.accountBy d.platform address = some row) : db.users.find? id = some row := by
  obtain ⟨row', hrow', hid, -⟩ := h.account
  cases hrow.symm.trans hrow'
  exact Table.find?_eq_some.mpr ⟨List.mem_of_find?_eq_some hrow, hid⟩

/-- The lock is in force, as the columns have it. -/
theorem Tracks.is_locked (h : Tracks d id address failures db)
    (hrow : db.accountBy d.platform address = some row) (t : Timestamp) :
    row.is_locked t = lockedOut d.max_attempts d.lock_duration failures t := by
  obtain ⟨row', hrow', -, -, -, hlock⟩ := h.account
  cases hrow.symm.trans hrow'
  rw [UserRecord.is_locked, hlock, Option.any_map]
  rfl

/-- A full series has had its last failure. -/
theorem Tracks.getElem?_isSome (h : Tracks d id address failures db) (hN : 1 ≤ d.max_attempts) :
    (failures[d.max_attempts - 1]?).isSome = true ↔ d.max_attempts = failures.length := by
  have hbounded := h.bounded
  rw [isSome_getElem?]
  omega

/-- The lock of a full series is in force or has run out. -/
theorem lockedOut_or_lockRanOut {N D : ℕ} (hN : 1 ≤ N) (hfull : failures.length = N)
    (t : Timestamp) : lockedOut N D failures t = true ∨ lockRanOut N D failures t = true := by
  have hlast : N - 1 < failures.length := by omega
  simp only [lockedOut, lockRanOut, List.getElem?_eq_getElem hlast, Option.any_some,
    decide_eq_true_eq]
  exact Nat.lt_or_ge t _

theorem lockRanOut_of_lockedOut {N D : ℕ} {t : Timestamp}
    (h : lockedOut N D failures t = true) : lockRanOut N D failures t = false := by
  unfold lockedOut at h
  unfold lockRanOut
  cases hlast : failures[N - 1]? with
  | none => rfl
  | some t₀ =>
    rw [hlast] at h
    exact decide_eq_false (Nat.not_le_of_lt (of_decide_eq_true h))

/-- An update of the account that does to the columns what happens to the series. -/
theorem Tracks.updateUser (h : Tracks d id address failures db) {failures' : List Timestamp}
    {f : UserRecord → UserRecord} {hf : ∀ u, (f u).id = u.id} (hemail : ∀ u, (f u).email = u.email)
    (hstatus : ∀ u, u.status ≠ .disabled → (f u).status ≠ .disabled)
    (hfailed : ∀ u, u.failed_login_attempts = failures.length →
      (f u).failed_login_attempts = failures'.length)
    (hlock : ∀ u, u.failed_login_attempts = failures.length →
      u.locked_until = failures[d.max_attempts - 1]?.map (· + d.lock_duration) →
      (f u).locked_until = failures'[d.max_attempts - 1]?.map (· + d.lock_duration))
    (hbounded : failures'.length ≤ d.max_attempts) :
    Tracks d id address failures' (db.updateUser id f hf) := by
  obtain ⟨row, hrow, rfl, henabled, hcount, hlocked⟩ := h.account
  refine ⟨⟨{ f row with updated_at := db.clock }, ?_, hf row, hstatus row henabled,
    hfailed row hcount, hlock row hcount hlocked⟩, h.unlocked, hbounded⟩
  rw [Database.accountBy_updateUser hemail, hrow]
  simp

/-- An update that clears the columns. -/
theorem Tracks.clear (h : Tracks d id address failures db) {f : UserRecord → UserRecord}
    {hf : ∀ u, (f u).id = u.id} (hemail : ∀ u, (f u).email = u.email)
    (hstatus : ∀ u, (f u).status = u.status) (hfailed : ∀ u, (f u).failed_login_attempts = 0)
    (hlock : ∀ u, (f u).locked_until = none) :
    Tracks d id address [] (db.updateUser id f hf) :=
  h.updateUser hemail (fun u hu => hstatus u ▸ hu) (fun u _ => hfailed u) (fun u _ _ => hlock u)
    (Nat.zero_le _)

/-- `reset_login_failures` does. -/
theorem Tracks.reset_login_failures (h : Tracks d id address failures db) :
    Tracks d id address [] (db.updateUser id (fun u =>
      { u with failed_login_attempts := 0, locked_until := none }) fun _ => rfl) :=
  h.clear (fun _ => rfl) (fun _ => rfl) (fun _ => rfl) fun _ => rfl

/-- An update that leaves the columns alone. -/
theorem Tracks.keep (h : Tracks d id address failures db) {f : UserRecord → UserRecord}
    {hf : ∀ u, (f u).id = u.id} (hemail : ∀ u, (f u).email = u.email)
    (hstatus : ∀ u, u.status ≠ .disabled → (f u).status ≠ .disabled)
    (hfailed : ∀ u, (f u).failed_login_attempts = u.failed_login_attempts)
    (hlock : ∀ u, (f u).locked_until = u.locked_until) :
    Tracks d id address failures (db.updateUser id f hf) :=
  h.updateUser hemail hstatus (fun u hu => (hfailed u).trans hu) (fun u _ hu => (hlock u).trans hu)
    h.bounded

/-- Another failure of a series that is not full. -/
theorem Tracks.count (h : Tracks d id address failures db)
    (hopen : failures.length < d.max_attempts) (t : Timestamp) :
    Tracks d id address (failures ++ [t]) (db.updateUser id (fun u =>
      { u with
        failed_login_attempts := u.failed_login_attempts + 1
        locked_until :=
          if min d.config.max_failed_login_attempts i32Max ≤ u.failed_login_attempts + 1
          then some (t + d.lock_duration)
          else u.locked_until }) fun _ => rfl) := by
  refine h.updateUser (fun _ => rfl) (fun _ hu => hu) (fun u hu => ?_) (fun u hu hlock => ?_) ?_
  · simp [hu]
  · change (if d.max_attempts ≤ u.failed_login_attempts + 1 then _ else u.locked_until) = _
    rw [hu, hlock]
    by_cases hfull : failures.length + 1 = d.max_attempts
    · have hlast : d.max_attempts - 1 = failures.length := by omega
      rw [if_pos hfull.ge, hlast, List.getElem?_concat_length]
      rfl
    · have hshort : (failures ++ [t]).length ≤ d.max_attempts - 1 := by
        rw [List.length_append, List.length_singleton]
        omega
      rw [if_neg (by omega), List.getElem?_eq_none hshort, List.getElem?_eq_none (by omega)]
  · rw [List.length_append]
    exact hopen

end Columns

section Code

variable {d : Deployment} {p : ℕ} {id : Uuid} {address : String} {failures : List Timestamp}
  {db : Database} {row : UserRecord} {cs : ℕ → Choice}

/-- While nothing is locked, nobody waits for a row. -/
theorem Database.free_of_nil (h : db.locks = []) (row : Row) (mode : LockMode) :
    db.free p row mode = true := by
  rw [Database.free, h]
  rfl

/-- What signing in comes to, once the account has been found. -/
theorem alone_verify_credentials {email password : String}
    (hemail : normalize_email d.platform email = address)
    (hrow : db.accountBy d.platform address = some row) :
    (store d.platform).alone p (IdentityService.verify_credentials d email password) cs db =
      (store d.platform).alone p
        (if row.is_locked db.clock then throw .account_locked
         else if row.status = .disabled then throw .account_disabled
         else if !d.platform.argon2_verify password row.password_hash then
           IdentityService.count_failure d row db.clock
         else if d.config.require_email_verification && !row.is_email_verified then
           throw .email_not_verified
         else IdentityService.accept d row password) (fun n => cs (n + 2)) db := by
  have hfind : (store d.platform).run p (.users (.find_by_email (normalize_email d.platform email)))
      (cs 0) db = some (db, .ok (some row)) := by
    rw [hemail, ← hrow]
    rfl
  exact (Store.alone_query_bind hfind).trans (Store.alone_query_bind rfl)

/-- A failure of a series that is not full is counted. -/
theorem run_record_login_failure (h : Tracks d id address failures db)
    (hopen : failures.length < d.max_attempts) (t : Timestamp) (c : Choice) :
    ∃ db' until_, (store d.platform).run p (.users (.record_login_failure id
        d.config.max_failed_login_attempts
        (t + d.lock_duration))) c db = some (db', .ok until_) ∧
      db'.clock = db.clock ∧ Tracks d id address (failures ++ [t]) db' := by
  have hcounted := h.count hopen t
  obtain ⟨row', hrow', -⟩ := hcounted.account
  refine ⟨_, row'.locked_until, ?_, ?_, hcounted⟩
  · simp only [store, Stmt.run, UserStmt.run, Database.free_of_nil h.unlocked, if_true,
      hcounted.find? hrow']
  · rfl

/-- A series does not look like another one that has been counted on. -/
theorem Tracks.ne {failures' : List Timestamp} {db' : Database} {t : Timestamp}
    (h : Tracks d id address failures db) (h' : Tracks d id address (failures' ++ [t]) db')
    (hD : 1 ≤ d.lock_duration)
    (hcases : failures' = failures ∨ failures' = [] ∧
      lockRanOut d.max_attempts d.lock_duration failures t = true) : db' ≠ db := by
  rintro rfl
  obtain ⟨row, hrow, -, -, hcount, hlock⟩ := h.account
  obtain ⟨row', hrow', -, -, hcount', hlock'⟩ := h'.account
  cases hrow.symm.trans hrow'
  have hlength := hcount.symm.trans hcount'
  have hsame := hlock.symm.trans hlock'
  rw [List.length_append, List.length_singleton] at hlength
  obtain rfl | ⟨rfl, hran⟩ := hcases
  · omega
  · -- The new series is as long as the full one only if one failure fills it.
    rw [lockRanOut, Option.any_eq_true] at hran
    obtain ⟨t₀, hlast, hran⟩ := hran
    obtain ⟨hfull, -⟩ := List.getElem?_eq_some_iff.mp hlast
    have hone : d.max_attempts - 1 = 0 := by
      rw [List.length_nil] at hlength
      omega
    rw [hlast, hone] at hsame
    have hsum : t₀ + d.lock_duration = t + d.lock_duration := Option.some.inj hsame
    have hran := of_decide_eq_true hran
    omega

/-- The series a failure belongs to: a new one if a lock has run out. -/
def currentSeries (d : Deployment) (failures : List Timestamp) (t : Timestamp) : List Timestamp :=
  if lockRanOut d.max_attempts d.lock_duration failures t then [] else failures

/-- What is left of a lock that has run out is cleared, and then there is room for a failure. -/
theorem alone_reset_expired (cs : ℕ → Choice) (h : Tracks d id address failures db)
    (hN : 1 ≤ d.max_attempts) (hrow : db.accountBy d.platform address = some row)
    (hopen : lockedOut d.max_attempts d.lock_duration failures db.clock = false) :
    ∃ db' rest, (store d.platform).alone p (when row.locked_until.isSome
        (ask (.users (.reset_login_failures row.id))) : Code IdentityError Unit) cs db =
        some (.ok (), db', rest) ∧ db'.clock = db.clock ∧
      Tracks d id address (currentSeries d failures db.clock) db' ∧
      (currentSeries d failures db.clock).length < d.max_attempts := by
  obtain ⟨row', hrow', hid, -, -, hlock⟩ := h.account
  cases hrow.symm.trans hrow'
  by_cases hfull : failures.length = d.max_attempts
  · have hran : lockRanOut d.max_attempts d.lock_duration failures db.clock = true :=
      (lockedOut_or_lockRanOut hN hfull db.clock).resolve_left (by simp [hopen])
    have hleft : row.locked_until.isSome = true := by
      rw [hlock, Option.isSome_map, h.getElem?_isSome hN]
      exact hfull.symm
    have hrun : (store d.platform).run p (.users (.reset_login_failures row.id)) (cs 0) db =
        some (_, .ok ()) := if_pos (Database.free_of_nil h.unlocked _ _)
    rw [currentSeries, if_pos hran, when, if_pos hleft]
    rw [hid] at hrun ⊢
    exact ⟨_, fun n => cs (n + 1), (congrArg (Option.bind · _) hrun).trans rfl, rfl,
      h.reset_login_failures, hN⟩
  · have hnone : failures[d.max_attempts - 1]? = none := by
      rw [← Option.not_isSome_iff_eq_none, h.getElem?_isSome hN]
      exact Ne.symm hfull
    have hran : lockRanOut d.max_attempts d.lock_duration failures db.clock = false := by
      rw [lockRanOut, hnone]
      rfl
    have hleft : row.locked_until.isSome = false := by
      rw [hlock, hnone]
      rfl
    have hbounded := h.bounded
    rw [currentSeries, hran, when, hleft]
    exact ⟨db, cs, rfl, rfl, h, by simp only [Bool.false_eq_true, if_false]; omega⟩

/-- A wrong password is counted, in a new series if a lock has run out, and refused. -/
theorem alone_count_failure (cs : ℕ → Choice) (h : Tracks d id address failures db)
    (hN : 1 ≤ d.max_attempts) (hD : 1 ≤ d.lock_duration)
    (hrow : db.accountBy d.platform address = some row)
    (hopen : lockedOut d.max_attempts d.lock_duration failures db.clock = false)
    (hdated : (deadline db.clock d.config.account_lock_duration_seconds).isSome = true) :
    ∃ e db' rest, (store d.platform).alone p (IdentityService.count_failure d row db.clock) cs db =
        some (.error e, db', rest) ∧ db' ≠ db ∧ db'.clock = db.clock ∧
      Tracks d id address (currentSeries d failures db.clock ++ [db.clock]) db' := by
  obtain ⟨row', hrow', hid, -, -, -⟩ := h.account
  cases hrow.symm.trans hrow'
  obtain ⟨db₁, cs₁, hreset, hclock₁, htracks₁, hroom⟩ :=
    alone_reset_expired (p := p) cs h hN hrow hopen
  obtain ⟨t, ht⟩ := Option.isSome_iff_exists.mp hdated
  obtain rfl := deadline_eq ht
  rw [← hclock₁] at ht
  obtain ⟨db', until_, hrecord, hclock, htracks⟩ :=
    run_record_login_failure (p := p) htracks₁ hroom db.clock (cs₁ 1)
  have hthrow : ∃ e, (store d.platform).alone p (if until_.any (db.clock < ·) then
      throw .account_locked else throw .invalid_credentials : Code IdentityError UserRecord)
      (fun n => cs₁ (n + 2)) db' = some (.error e, db', fun n => cs₁ (n + 2)) := by
    split
    · exact ⟨_, rfl⟩
    · exact ⟨_, rfl⟩
  obtain ⟨e, he⟩ := hthrow
  refine ⟨e, db', fun n => cs₁ (n + 2), ?_, h.ne htracks hD ?_, hclock.trans hclock₁, htracks⟩
  · rw [IdentityService.count_failure, Store.alone_bind, hreset, Option.bind_some]
    dsimp only
    have hnow : (store d.platform).run p .now (cs₁ 0) db₁ = some (db₁, .ok db₁.clock) := rfl
    rw [Store.alone_query_bind hnow]
    refine (Store.alone_unwrap_bind ht).trans ?_
    rw [hclock₁, hid]
    exact (Store.alone_query_bind hrecord).trans he
  · rw [currentSeries]
    split
    · next hran => exact .inr ⟨rfl, hran⟩
    · exact .inl rfl

/-- A wrong password whose deadline is no moment is not counted; what is left of a lock that has run
out is cleared all the same. -/
theorem alone_count_failure_panics (cs : ℕ → Choice) (h : Tracks d id address failures db)
    (hN : 1 ≤ d.max_attempts) (hrow : db.accountBy d.platform address = some row)
    (hopen : lockedOut d.max_attempts d.lock_duration failures db.clock = false)
    (hdated : (deadline db.clock d.config.account_lock_duration_seconds).isSome = false) :
    ∃ db' rest, (store d.platform).alone p (IdentityService.count_failure d row db.clock) cs db =
        some (.error (.internal .panicked), db', rest) ∧
      Tracks d id address (currentSeries d failures db.clock) db' := by
  obtain ⟨db₁, cs₁, hreset, hclock₁, htracks₁, -⟩ := alone_reset_expired (p := p) cs h hN hrow hopen
  refine ⟨db₁, fun n => cs₁ (n + 1), ?_, htracks₁⟩
  rw [IdentityService.count_failure, Store.alone_bind, hreset, Option.bind_some]
  dsimp only
  have hnow : (store d.platform).run p .now (cs₁ 0) db₁ = some (db₁, .ok db₁.clock) := rfl
  rw [Store.alone_query_bind hnow, hclock₁, expires_at,
    Option.isSome_eq_false_iff.mp hdated |> Option.isNone_iff_eq_none.mp]
  rfl

/-- A rehash leaves the columns alone, and never fails. -/
theorem of_alone_upgrade (h : Tracks d id address failures db) {password : String}
    {y : Except IdentityError Unit} {db' : Database} {rest : ℕ → Choice}
    (hrun : (store d.platform).alone p
      (IdentityService.upgrade_password_hash d id password) cs db = some (y, db', rest)) :
    y = .ok () ∧ Tracks d id address failures db' := by
  obtain ⟨⟨db₁, salt⟩, hsalt, hrun⟩ := Option.bind_eq_some_iff.mp hrun
  simp only [store, Stmt.run] at hsalt
  split at hsalt <;> cases hsalt
  obtain ⟨⟨db₂, replaced⟩, hreplace, hrun⟩ := Option.bind_eq_some_iff.mp hrun
  simp only [store, Stmt.run, UserStmt.run] at hreplace
  split at hreplace <;> cases hreplace
  cases hrun
  have hissued : Tracks d id address failures (db.issue (cs 0).id) :=
    ⟨h.account, h.unlocked, h.bounded⟩
  exact ⟨rfl, hissued.keep (fun _ => rfl) (fun _ hu => hu) (fun _ => rfl) fun _ => rfl⟩

/-- The right password clears the columns, and is accepted. -/
theorem of_alone_accept (h : Tracks d id address failures db) (hid : row.id = id)
    {password : String}
    {y : Except IdentityError UserRecord} {db' : Database} {rest : ℕ → Choice}
    (hrun : (store d.platform).alone p (IdentityService.accept d row password) cs db =
      some (y, db', rest)) : y = .ok row ∧ Tracks d id address [] db' := by
  rw [IdentityService.accept, hid, Store.alone_bind, Option.bind_eq_some_iff] at hrun
  obtain ⟨⟨y₁, db₁, cs₁⟩, hupgrade, hrun⟩ := hrun
  have hkept : y₁ = .ok () ∧ Tracks d id address failures db₁ := by
    rw [when] at hupgrade
    split at hupgrade
    · exact of_alone_upgrade h hupgrade
    · cases hupgrade
      exact ⟨rfl, h⟩
  obtain ⟨rfl, htracks⟩ := hkept
  obtain ⟨⟨db₂, y₂⟩, hsuccess, hrun⟩ := Option.bind_eq_some_iff.mp hrun
  simp only [store, Stmt.run, UserStmt.run] at hsuccess
  split at hsuccess <;> cases hsuccess
  cases hrun
  exact ⟨rfl, htracks.clear (fun _ => rfl) (fun _ => rfl) (fun _ => rfl) fun _ => rfl⟩

/-- Looking the account up by its identifier. -/
theorem alone_load_account (h : Tracks d id address failures db)
    (hrow : db.accountBy d.platform address = some row) :
    (store d.platform).alone p (IdentityService.load id) cs db =
      some (.ok row, db, fun n => cs (n + 1)) := by
  have hfind : (store d.platform).run p (.users (.find_by_id id)) (cs 0) db =
      some (db, .ok (some row)) := by
    rw [← h.find? hrow]
    rfl
  exact Store.alone_query_bind hfind

/-- An unlock clears the columns. -/
theorem of_alone_unlock_account (h : Tracks d id address failures db)
    {y : Except IdentityError PublicUser} {db' : Database} {rest : ℕ → Choice}
    (hrun : (store d.platform).alone p (IdentityService.unlock_account id) cs db =
      some (y, db', rest)) : Tracks d id address [] db' := by
  obtain ⟨row, hrow, -⟩ := h.account
  rw [IdentityService.unlock_account, Store.alone_bind, alone_load_account h hrow,
    Option.bind_some] at hrun
  obtain ⟨⟨db₁, y₁⟩, hreset, hrun⟩ := Option.bind_eq_some_iff.mp hrun
  simp only [store, Stmt.run, UserStmt.run] at hreset
  split at hreset <;> cases hreset
  have hcleared := h.reset_login_failures
  obtain ⟨row', hrow', -⟩ := hcleared.account
  -- What follows only reads the account and its roles.
  change (store d.platform).alone p (IdentityService.account id) _ _ = _ at hrun
  rw [IdentityService.account, Store.alone_bind, alone_load_account hcleared hrow'] at hrun
  cases hrun
  exact hcleared

end Code

/-! ### Sequences of calls -/

section Sequences

variable {d : Deployment} {p : ℕ} {id : Uuid} {address : String} {failures : List Timestamp}
  {db₀ db : Database} {row : UserRecord} {cs : ℕ → Choice} {calls : List (Timestamp × CallKind)}

/-- A call whose answer is dropped. -/
theorem of_alone_discard {α : Type} {x : Code IdentityError α} {y : Except IdentityError Unit}
    {db' : Database} {rest : ℕ → Choice}
    (h : (store d.platform).alone p (do let _ ← x; return ()) cs db = some (y, db', rest)) :
    ∃ y' rest', (store d.platform).alone p x cs db = some (y', db', rest') := by
  rw [Store.alone_bind, Option.bind_eq_some_iff] at h
  obtain ⟨⟨y', db₁, rest'⟩, hx, hrest⟩ := h
  cases y' with
  | ok a =>
    cases hrest
    exact ⟨_, _, hx⟩
  | error e =>
    cases hrest
    exact ⟨_, _, hx⟩

/-- What a call to sign in makes of the series. -/
theorem Tracks.verify_credentials (h : Tracks d id address failures db)
    (hN : 1 ≤ d.max_attempts) (hD : 1 ≤ d.lock_duration) {email password : String}
    (hemail : normalize_email d.platform email = address)
    (hrow : db.accountBy d.platform address = some row) {y : Except IdentityError UserRecord}
    {db' : Database} {rest : ℕ → Choice}
    (hrun : (store d.platform).alone p (IdentityService.verify_credentials d email password) cs db =
      some (y, db', rest)) (earlier : List (Timestamp × CallKind))
    (hearlier : failureSeries d.max_attempts d.lock_duration earlier = failures) :
    Tracks d id address (failureSeries d.max_attempts d.lock_duration
      ((db.clock, (AccountCall.verify_credentials email password).kind d row db.clock) ::
        earlier)) db' := by
  obtain ⟨row', hrow', hid, henabled, -⟩ := h.account
  cases hrow.symm.trans hrow'
  rw [alone_verify_credentials hemail hrow, h.is_locked hrow] at hrun
  rw [failureSeries, hearlier]
  cases hopen : lockedOut d.max_attempts d.lock_duration failures db.clock with
  | true =>
    rw [if_pos hopen] at hrun
    cases hrun
    have hran := lockRanOut_of_lockedOut hopen
    have hsame : (if ((AccountCall.verify_credentials email password).kind d row db.clock).clears
        d.max_attempts d.lock_duration failures db.clock then [] else failures) ++
        (if ((AccountCall.verify_credentials email password).kind d row db.clock).counts
          d.max_attempts d.lock_duration failures db.clock then [db.clock] else []) = failures := by
      rw [AccountCall.kind]
      split
      · split
        · simp [CallKind.clears, CallKind.counts, hran, hopen]
        · simp [CallKind.clears, CallKind.counts, hran]
      split
      · simp [CallKind.clears, CallKind.counts]
      · simp [CallKind.clears, CallKind.counts, hopen]
    rw [hsame]
    exact h
  | false =>
    rw [if_neg (by simp [hopen]), if_neg henabled] at hrun
    rw [AccountCall.kind]
    split at hrun
    · rename_i hwrong
      rw [if_pos hwrong]
      cases hdated : (deadline db.clock d.config.account_lock_duration_seconds).isSome with
      | true =>
        obtain ⟨e, db'', rest', hcount, -, -, htracks⟩ :=
          alone_count_failure (p := p) (fun n => cs (n + 2)) h hN hD hrow hopen hdated
        cases hcount.symm.trans hrun
        have hcounts : CallKind.counts d.max_attempts d.lock_duration failures db.clock .wrong =
            true := by
          rw [CallKind.counts, hopen]
          rfl
        rw [if_pos rfl, if_pos hcounts]
        exact htracks
      | false =>
        obtain ⟨db'', rest', hpanics, htracks⟩ :=
          alone_count_failure_panics (p := p) (fun n => cs (n + 2)) h hN hrow hopen hdated
        cases hpanics.symm.trans hrun
        rw [if_neg Bool.false_ne_true]
        change Tracks d id address (currentSeries d failures db.clock ++ []) db'
        rw [List.append_nil]
        exact htracks
    rename_i hright
    rw [if_neg hright]
    split at hrun
    · rename_i hunverified
      cases hrun
      rw [if_pos hunverified]
      simpa [CallKind.clears, CallKind.counts] using h
    · rename_i hverified
      rw [if_neg hverified]
      simpa [CallKind.clears, CallKind.counts, hopen] using (of_alone_accept h hid hrun).2

/-- **What a call makes of the columns** is what it makes of the series. -/
theorem Tracks.call (hN : 1 ≤ d.max_attempts) (hD : 1 ≤ d.lock_duration)
    (h : Tracks d id address (failureSeries d.max_attempts d.lock_duration calls) db)
    {call : AccountCall} (hrow : db.accountBy d.platform address = some row)
    (haddress : ∀ email password, call = .verify_credentials email password →
      normalize_email d.platform email = address) {y : Except IdentityError Unit}
    {db' : Database} {rest : ℕ → Choice}
    (hrun : (store d.platform).alone p (call.code d id) cs db = some (y, db', rest)) :
    Tracks d id address (failureSeries d.max_attempts d.lock_duration
      ((db.clock, call.kind d row db.clock) :: calls)) db' := by
  cases call with
  | verify_credentials email password =>
    obtain ⟨y', rest', hverify⟩ := of_alone_discard hrun
    exact h.verify_credentials hN hD (haddress email password rfl) hrow hverify calls rfl
  | unlock_account =>
    obtain ⟨y', rest', hunlock⟩ := of_alone_discard hrun
    exact of_alone_unlock_account h hunlock
  | update_password password_hash =>
    obtain ⟨⟨db₁, y₁⟩, hupdate, hrun⟩ := Option.bind_eq_some_iff.mp hrun
    simp only [store, Stmt.run, UserStmt.run] at hupdate
    split at hupdate <;> cases hupdate
    cases hrun
    exact h.clear (fun _ => rfl) (fun _ => rfl) (fun _ => rfl) fun _ => rfl
  | mark_email_verified =>
    obtain ⟨⟨db₁, y₁⟩, hupdate, hrun⟩ := Option.bind_eq_some_iff.mp hrun
    simp only [store, Stmt.run, UserStmt.run] at hupdate
    split at hupdate <;> cases hupdate
    cases hrun
    rw [failureSeries]
    simp only [AccountCall.kind, CallKind.clears, CallKind.counts, Bool.false_eq_true, if_false,
      List.append_nil]
    exact h.keep (fun _ => rfl) (fun u hu => by dsimp only; split <;> simp [hu]) (fun _ => rfl)
      fun _ => rfl

/-- After any sequence of calls the columns say what the series says. -/
theorem Calls.tracks (hN : 1 ≤ d.max_attempts) (hD : 1 ≤ d.lock_duration)
    (hstart : StartsClean d id address db₀) (h : Calls d id address db₀ calls db) :
    Tracks d id address (failureSeries d.max_attempts d.lock_duration calls) db := by
  induction h with
  | nil =>
    obtain ⟨row, hrow, hid, henabled, hfailed, hlock⟩ := hstart.account
    exact ⟨⟨row, hrow, hid, henabled, hfailed, hlock⟩, hstart.unlocked, Nat.zero_le _⟩
  | @call calls db db' t p call row cs rest y _ _ hrow haddress hrun ih =>
    exact (ih.at_clock t).call hN hD hrow haddress hrun

/-- An attempt is refused untested exactly while the columns lock the account. -/
theorem Tracks.untested_iff (hN : 1 ≤ d.max_attempts) (hD : 1 ≤ d.lock_duration)
    (h : Tracks d id address failures db) {email password : String}
    (hemail : normalize_email d.platform email = address) :
    RefusesUntested d p email password cs db ↔
      lockedOut d.max_attempts d.lock_duration failures db.clock = true := by
  obtain ⟨row, hrow, hid, henabled, -⟩ := h.account
  unfold RefusesUntested
  rw [alone_verify_credentials hemail hrow, h.is_locked hrow]
  constructor
  · rintro ⟨rest, hrun⟩
    by_contra hopen
    rw [if_neg hopen, if_neg henabled] at hrun
    split at hrun
    · cases hdated : (deadline db.clock d.config.account_lock_duration_seconds).isSome with
      | true =>
        -- A failure that counts changes the columns.
        obtain ⟨e, db', rest', hcount, hne, -⟩ := alone_count_failure (p := p)
          (fun n => cs (n + 2)) h hN hD hrow (Bool.eq_false_iff.mpr hopen) hdated
        cases hcount.symm.trans hrun
        exact hne rfl
      | false =>
        obtain ⟨db', rest', hpanics, -⟩ := alone_count_failure_panics (p := p)
          (fun n => cs (n + 2)) h hN hrow (Bool.eq_false_iff.mpr hopen) hdated
        cases hpanics.symm.trans hrun
    split at hrun
    · cases hrun
    · cases (of_alone_accept h hid hrun).1
  · intro hlocked
    rw [if_pos hlocked]
    exact ⟨_, rfl⟩

/-- The account is locked in the columns exactly when it has failed often enough. -/
theorem Tracks.locked_until_isSome (hN : 1 ≤ d.max_attempts)
    (h : Tracks d id address failures db) (hmem : row ∈ db.users.rows) (hid : row.id = id) :
    row.locked_until.isSome = true ↔ d.max_attempts ≤ row.failed_login_attempts := by
  obtain ⟨row', hrow', -, -, hfailed, hlock⟩ := h.account
  have hfind := h.find? hrow'
  rw [Table.find?_eq_some.mpr ⟨hmem, hid⟩] at hfind
  cases hfind
  have hbounded := h.bounded
  rw [hlock, hfailed, Option.isSome_map, h.getElem?_isSome hN]
  omega

theorem Deployment.one_le_max_attempts (h : 1 ≤ d.config.max_failed_login_attempts) :
    1 ≤ d.max_attempts :=
  Nat.le_min.mpr ⟨h, by decide⟩

theorem Deployment.one_le_lock_duration (h : 1 ≤ d.config.account_lock_duration_seconds) :
    1 ≤ d.lock_duration := by
  unfold Deployment.lock_duration seconds
  omega

end Sequences

variable {d : Deployment} {p : ℕ} {id : Uuid} {address : String} {db₀ db : Database}
  {calls : List (Timestamp × CallKind)}

/-- **A call is refused untested exactly while the last failure of a full series is recent**,
whatever has been called on the account so far; and its row carries a deadline exactly when it
carries a full count. -/
theorem refusesUntested_iff (hN : 1 ≤ d.config.max_failed_login_attempts)
    (hD : 1 ≤ d.config.account_lock_duration_seconds) (hstart : StartsClean d id address db₀)
    (h : Calls d id address db₀ calls db) :
    (∀ t email password cs, normalize_email d.platform email = address →
      (RefusesUntested d p email password cs { db with clock := t } ↔
        lockedOut d.max_attempts d.lock_duration
          (failureSeries d.max_attempts d.lock_duration calls) t = true)) ∧
    ∀ row ∈ db.users.rows, row.id = id →
      (row.locked_until.isSome = true ↔ d.max_attempts ≤ row.failed_login_attempts) := by
  have hN := Deployment.one_le_max_attempts hN
  have hD := Deployment.one_le_lock_duration hD
  have htracks := h.tracks hN hD hstart
  refine ⟨fun t email password cs hemail => ?_, fun row hmem hid =>
    htracks.locked_until_isSome hN hmem hid⟩
  exact (htracks.at_clock t).untested_iff hN hD hemail

/-! ### A limit beyond the counter

The counter is clamped by design: it is a column of 32 bits. A configuration that allows more
failures than the column can count locks the account one failure early. -/

/-- A deployment with a huge limit on wrong passwords. -/
def Deployment.lenient : Deployment :=
  { Deployment.sample with
    config := { AppConfig.sample with max_failed_login_attempts := 2 ^ 31 } }

/-- One account, which has not failed yet. -/
def Database.oneAccount : Database :=
  { Database.empty with users := Table.empty.insertNew (.sample 8 "ada@example.org") }

theorem startsClean_oneAccount (d : Deployment) (hd : d.platform = .sample) :
    StartsClean d 8 "ada@example.org" .oneAccount := by
  refine ⟨⟨.sample 8 "ada@example.org", ?_, rfl, nofun, rfl, rfl⟩, rfl⟩
  rw [hd]
  decide +kernel

/-- As many failures at one moment as do not fill a series. -/
theorem failureSeries_replicate {N D k : ℕ} (hk : k ≤ N) (t : Timestamp) :
    failureSeries N D (List.replicate k (t, .wrong)) = List.replicate k t := by
  induction k with
  | zero => rfl
  | succ k ih =>
    have hnone : (List.replicate k t)[N - 1]? = none :=
      List.getElem?_eq_none (by rw [List.length_replicate]; omega)
    rw [List.replicate_succ, failureSeries, ih (by omega), List.replicate_succ']
    simp [CallKind.clears, CallKind.counts, lockRanOut, lockedOut, hnone]

/-- Another wrong password of a series that is not full. -/
theorem Calls.wrong (hN : 1 ≤ d.max_attempts) (hD : 1 ≤ d.lock_duration)
    (hstart : StartsClean d id address db₀) (h : Calls d id address db₀ calls db)
    (hopen : lockedOut d.max_attempts d.lock_duration
      (failureSeries d.max_attempts d.lock_duration calls) db.clock = false)
    (hdated : (deadline db.clock d.config.account_lock_duration_seconds).isSome = true)
    {email password : String} (hemail : normalize_email d.platform email = address)
    (hwrong : ∀ u ∈ db.users.rows, d.platform.argon2_verify password u.password_hash = false) :
    ∃ db', Calls d id address db₀ ((db.clock, .wrong) :: calls) db' ∧ db'.clock = db.clock ∧
      ∀ u ∈ db'.users.rows, d.platform.argon2_verify password u.password_hash = false := by
  have htracks := h.tracks hN hD hstart
  obtain ⟨row, hrow, -, henabled, -⟩ := htracks.account
  have hrefused : d.platform.argon2_verify password row.password_hash = false :=
    hwrong row (List.mem_of_find?_eq_some hrow)
  obtain ⟨e, db', rest, hcount, -, hclock, -⟩ :=
    alone_count_failure (p := 0) (fun _ => {}) htracks hN hD hrow hopen hdated
  have hkind : AccountCall.kind d row db.clock (.verify_credentials email password) = .wrong := by
    rw [AccountCall.kind, if_pos (by simp [hrefused]), if_pos hdated]
  have hverify : (store d.platform).alone 0
      (IdentityService.verify_credentials d email password) (fun _ => {}) db =
        some (.error e, db', rest) := by
    rw [alone_verify_credentials hemail hrow, htracks.is_locked hrow, if_neg (by simp [hopen]),
      if_neg henabled, if_pos (by simp [hrefused])]
    exact hcount
  have hrun : (store d.platform).alone 0
      ((AccountCall.verify_credentials email password).code d id) (fun _ => {}) db =
        some (.error e, db', rest) := by
    change (store d.platform).alone 0
      (do let _ ← IdentityService.verify_credentials d email password; return ()) _ db = _
    rw [Store.alone_bind, hverify]
    rfl
  refine ⟨db', ?_, hclock, ?_⟩
  · rw [← hkind]
    refine h.call (le_refl _) hrow (fun email' password' heq => ?_) hrun
    cases heq
    exact hemail
  · -- Counting a failure writes no hash.
    have hissues : (IdentityService.count_failure d row db.clock).Issues
        fun q => ∀ id hash, ¬ q.writesHash id hash := by
      refine (Script.Issues.when fun _ => Script.issues_query fun _ _ h => h).bind fun _ =>
        (Script.issues_query fun _ _ h => h).bind fun _ => expires_at_issues.bind fun _ =>
          (Script.issues_query fun _ _ h => h).bind fun locked => ?_
      split <;> exact Script.issues_throw
    refine Store.inv_of_alone
      (I := fun db =>
        ∀ u ∈ db.users.rows, d.platform.argon2_verify password u.password_hash = false)
      hissues (fun hq hrun hall u' hu' => ?_) hcount hwrong
    obtain ⟨u, hu, -, hsame | hwrites⟩ := Stmt.hash_origin hrun hu'
    · rw [hsame]
      exact hall u hu
    · exact absurd hwrites (hq _ _)

/-- Wrong passwords, all at one moment, that do not fill a series. -/
theorem exists_calls_wrong (d : Deployment) (hd : d.platform = .sample)
    (hN : 1 ≤ d.max_attempts) (hD : 1 ≤ d.lock_duration)
    (hdated : (deadline 0 d.config.account_lock_duration_seconds).isSome = true) {k : ℕ}
    (hk : k ≤ d.max_attempts) :
    ∃ db, Calls d 8 "ada@example.org" .oneAccount (List.replicate k (0, .wrong)) db ∧
      db.clock = 0 ∧
      ∀ u ∈ db.users.rows, d.platform.argon2_verify "guess" u.password_hash = false := by
  induction k with
  | zero =>
    refine ⟨.oneAccount, .nil, rfl, ?_⟩
    rw [hd]
    decide +kernel
  | succ k ih =>
    obtain ⟨db, hcalls, hclock, hwrong⟩ := ih (by omega)
    have hopen : lockedOut d.max_attempts d.lock_duration
        (failureSeries d.max_attempts d.lock_duration (List.replicate k (0, .wrong))) db.clock =
          false := by
      rw [failureSeries_replicate (by omega), lockedOut,
        List.getElem?_eq_none (by rw [List.length_replicate]; omega)]
      rfl
    have hemail : normalize_email d.platform "ada@example.org" = "ada@example.org" := by
      rw [hd]
      decide +kernel
    obtain ⟨db', hcalls', hclock', hwrong'⟩ :=
      hcalls.wrong hN hD (startsClean_oneAccount d hd) hopen (hclock.symm ▸ hdated) hemail hwrong
    rw [hclock] at hcalls'
    exact ⟨db', hcalls', hclock'.trans hclock, hwrong'⟩

/-- Five wrong passwords lock the account for 900 seconds. -/
theorem refusesUntested_after_five :
    ∃ db, Calls .sample 8 "ada@example.org" .oneAccount (List.replicate 5 (0, .wrong)) db ∧
      RefusesUntested .sample 0 "ada@example.org" "secret" (fun _ => {})
        { db with clock := seconds 899 } ∧
      ¬ RefusesUntested .sample 0 "ada@example.org" "secret" (fun _ => {})
        { db with clock := seconds 900 } := by
  obtain ⟨db, hcalls, -⟩ :=
    exists_calls_wrong .sample rfl (by decide) (by decide) (by decide +kernel) (by decide : 5 ≤ _)
  have hiff := fun t => (refusesUntested_iff (p := 0) (by decide) (by decide)
    (startsClean_oneAccount .sample rfl) hcalls).1 t "ada@example.org" "secret" (fun _ => {})
      (by decide +kernel)
  exact ⟨db, hcalls, (hiff _).mpr (by decide), fun h => absurd ((hiff _).mp h) (by decide)⟩

/-- **The counter is a 32-bit column.** With a limit of `2 ^ 31` the account is locked one failure
early. -/
theorem not_refusesUntested_iff :
    ¬ ∀ (d : Deployment) (p : ℕ) (id : Uuid) (address : String) (db₀ db : Database)
      (calls : List (Timestamp × CallKind)), 1 ≤ d.config.max_failed_login_attempts →
      1 ≤ d.config.account_lock_duration_seconds → StartsClean d id address db₀ →
      Calls d id address db₀ calls db → ∀ t email password cs,
      normalize_email d.platform email = address →
      (RefusesUntested d p email password cs { db with clock := t } ↔
        lockedOut d.config.max_failed_login_attempts
          (seconds d.config.account_lock_duration_seconds)
          (failureSeries d.config.max_failed_login_attempts
            (seconds d.config.account_lock_duration_seconds) calls) t = true) := by
  intro hclaim
  have hN : 1 ≤ Deployment.lenient.max_attempts := by decide
  have hD : 1 ≤ Deployment.lenient.lock_duration := by decide
  obtain ⟨db, hcalls, hclock, -⟩ :=
    exists_calls_wrong .lenient rfl hN hD (by decide +kernel)
      (le_refl Deployment.lenient.max_attempts)
  have hstart := startsClean_oneAccount .lenient rfl
  have hemail : normalize_email .sample "ada@example.org" = "ada@example.org" := by decide +kernel
  have htracks := (hcalls.tracks hN hD hstart).at_clock 0
  rw [failureSeries_replicate (le_refl _)] at htracks
  have hlocked : lockedOut Deployment.lenient.max_attempts Deployment.lenient.lock_duration
      (List.replicate Deployment.lenient.max_attempts 0) 0 = true := by
    have hlast : (List.replicate Deployment.lenient.max_attempts 0)[
        Deployment.lenient.max_attempts - 1]? = some 0 :=
      List.getElem?_replicate_of_lt (by omega)
    rw [lockedOut, hlast]
    decide
  have hrefused : RefusesUntested .lenient 0 "ada@example.org" "guess" (fun _ => {})
      { db with clock := 0 } := (htracks.untested_iff hN hD hemail).mpr hlocked
  have hopen := (hclaim .lenient 0 8 "ada@example.org" .oneAccount db _ (by decide) (by decide)
    hstart hcalls 0 "ada@example.org" "guess" (fun _ => {}) hemail).mp hrefused
  have hshort : Deployment.lenient.max_attempts ≤
      Deployment.lenient.config.max_failed_login_attempts := by decide
  rw [failureSeries_replicate hshort, lockedOut, List.getElem?_eq_none] at hopen
  · cases hopen
  · rw [List.length_replicate]
    decide

end SubmitSnap
