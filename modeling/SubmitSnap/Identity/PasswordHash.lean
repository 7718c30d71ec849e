import SubmitSnap.Footprints

/-!
# The stored hash: which password an account accepts

Three statements write a password hash: the two ways of setting a password share `update_password`,
and a login whose stored hash is outdated writes a new hash of the password it has just verified.
That login verified the password against a row it read earlier, so its write can land after a
password change and put the old password back.

`StoresLastPassword` is the property, read off the trace. It holds in every run in which a rehash is
only written while the stored hash still verifies the password that is rehashed.

## The argument

A hash in the table was there at the start or was written by one of the three statements; no
statement moves a hash from one account to another. So the property can only be broken by a write,
and for the first two there is nothing to show: they write a hash of the password that the event
is about. What is left is the rehash. It writes a hash of the password that its login has
verified, and that is the right one if the stored hash verifies it still when the write lands.
`rehashesStand` asks for just that, of the state before the write.

That a hash verifies its own password and no other is a property of Argon2 and is an assumption,
`Argon2Exact`. Everything else about the hash function is left open.

## Main results

* `storesLastPassword_of_reaches` — the property, in the runs of `rehashesStand`.
* `not_storesLastPassword` — a login overlaps a password reset.
-/

namespace SubmitSnap

open Interleave
open Interleave.Script (ret when mapError result)

/-- The password a request sets. -/
def Request.sets_password : Request → Option String
  | change_password _ _ new_password | reset_password _ new_password => some new_password
  | _ => none

/-- The password a request signs in with. -/
def Request.login_password : Request → Option String
  | login _ password _ => some password
  | _ => none

/-- The event commits the new password `password` for the account `user_id`. -/
def commitsPassword (user_id : Uuid) (password : String) : Event → Prop
  | ⟨_, r, _, .users (.update_password id _), .ok _⟩ =>
    id = user_id ∧ r.sets_password = some password
  | _ => False

/-- The event commits some new password for the account `user_id`. -/
def replacesPassword (user_id : Uuid) : Event → Prop
  | ⟨_, _, _, .users (.update_password id _), .ok _⟩ => id = user_id
  | _ => False

/-- The hash verifies that password and no other. -/
def Verifies (P : Platform) (password hash : String) : Prop :=
  ∀ other, P.argon2_verify other hash = true ↔ other = password

/-- The stored hash of an account verifies the password last set for it and no other. -/
def StoresLastPassword (P : Platform) (s : State) : Prop :=
  ∀ user_id password, Since (commitsPassword user_id password) (replacesPassword user_id) s.log →
    ∀ u ∈ s.db.users.rows, u.id = user_id → Verifies P password u.password_hash

/-- A login rehashes a password that the stored hash no longer verifies. -/
def rehashesStale (P : Platform) (db : Database) : Request → Stmt → Prop
  | .login _ password _, .users (.replace_password_hash user_id _) =>
    ∃ u ∈ db.users.rows, u.id = user_id ∧ P.argon2_verify password u.password_hash = false
  | _, _ => False

/-- The requests of the property: logins and the two ways of setting a password. -/
def Request.handlesPasswords : Request → Prop
  | login _ _ _ | change_password _ _ _ | reset_password _ _ => True
  | _ => False

/-- The runs in which a login rehashes only what the account still accepts. -/
abbrev rehashesStand (P : Platform) : Regime :=
  (Regime.free Request.handlesPasswords).avoiding fun _ r q s => rehashesStale P s.db r q

/-! ### The hash column -/

section Statement

variable {P : Platform} {p : ℕ} {c : Choice} {db db' : Database}

/-- The statements that write the hash of the account `user_id`, with what they write. -/
def Stmt.writesHash (user_id : Uuid) (hash : String) : Stmt → Prop
  | .users (.update_password id password_hash) => id = user_id ∧ password_hash = hash
  | .users (.replace_password_hash id password_hash) => id = user_id ∧ password_hash = hash
  | _ => False

/-- An update of accounts keeps their hashes, or is one of the two statements that write them. -/
theorem UserStmt.hash_origin {q : UserStmt} {x : Except Failure q.Reply}
    (h : q.run P p db = some (db', x)) {u' : UserRecord} (hu' : u' ∈ db'.users.rows) :
    ∃ u ∈ db.users.rows, u'.id = u.id ∧
      (u'.password_hash = u.password_hash ∨ (Stmt.users q).writesHash u.id u'.password_hash) := by
  have hkept : u' ∈ db.users.rows → ∃ u ∈ db.users.rows, u'.id = u.id ∧
      (u'.password_hash = u.password_hash ∨ (Stmt.users q).writesHash u.id u'.password_hash) :=
    fun hu => ⟨u', hu, rfl, .inl rfl⟩
  cases q with
  | find_by_email _ | find_by_id _ =>
    cases h
    exact hkept hu'
  | delete_check id =>
    simp only [UserStmt.run] at h
    (repeat' split at h) <;> cases h <;> exact hkept hu'
  | delete_apply id =>
    simp only [UserStmt.run] at h
    split at h <;> cases h
    exact hkept (Table.mem_deleteWhere.mp hu').1
  | update_password id password_hash | replace_password_hash id password_hash =>
    simp only [UserStmt.run] at h
    split at h <;> cases h
    obtain ⟨u, hu, ⟨hsel, rfl⟩ | ⟨-, rfl⟩⟩ := Table.of_mem_updateWhere hu'
    · exact ⟨u, hu, rfl, .inr ⟨(beq_iff_eq.mp hsel).symm, rfl⟩⟩
    · exact hkept hu
  | record_login_success _ | reset_login_failures _ | record_login_failure _ _ _
  | mark_email_verified _ | set_status _ _ =>
    simp only [UserStmt.run] at h
    (repeat' split at h) <;> cases h
    all_goals
      obtain ⟨u, hu, ⟨-, rfl⟩ | ⟨-, rfl⟩⟩ := Table.of_mem_updateWhere hu'
      · exact ⟨u, hu, rfl, .inl rfl⟩
      · exact hkept hu

/-- Only statements on `users` change the accounts. -/
theorem Stmt.users_eq {q : Stmt} {x : Except Failure q.Reply} (hq : ∀ q', q ≠ .users q')
    (h : q.run P p c db = some (db', x)) : db'.users = db.users := by
  cases q with
  | users q => exact absurd rfl (hq q)
  | _ => exact Stmt.footprint .users rfl h

/-- **Where a stored hash comes from.** -/
theorem Stmt.hash_origin {q : Stmt} {x : Except Failure q.Reply}
    (h : q.run P p c db = some (db', x)) {u' : UserRecord} (hu' : u' ∈ db'.users.rows) :
    ∃ u ∈ db.users.rows, u'.id = u.id ∧
      (u'.password_hash = u.password_hash ∨ q.writesHash u.id u'.password_hash) := by
  by_cases hq : ∃ q', q = .users q'
  · obtain ⟨q', rfl⟩ := hq
    exact UserStmt.hash_origin h hu'
  · rw [Stmt.users_eq (fun q' hq' => hq ⟨q', hq'⟩) h] at hu'
    exact ⟨u', hu', rfl, .inl rfl⟩

end Statement

/-! ### The invariant -/

/-- A request that writes a hash writes one of its own password. -/
def HashesOwn (P : Platform) (r : Request) : Stmt → Prop
  | .users (.update_password _ hash) => ∀ password, r.sets_password = some password →
    Verifies P password hash
  | .users (.replace_password_hash _ hash) => ∃ password, r.login_password = some password ∧
    Verifies P password hash
  | _ => True

section Effect

variable {P : Platform} {p : ℕ} {r : Request} {q : Stmt} {x : Except Failure q.Reply}
  {s s' : State}

/-- After a password change the stored hash is the one it wrote. -/
theorem Verifies.of_commits {c : Choice} {db : Database} (h : q.run P p c s.db = some (db, x))
    (hown : HashesOwn P r q) {user_id : Uuid} {password : String}
    (hc : commitsPassword user_id password ⟨p, r, s.db, q, x⟩) {u' : UserRecord}
    (hu' : u' ∈ db.users.rows) (hid : u'.id = user_id) : Verifies P password u'.password_hash := by
  unfold commitsPassword at hc
  split at hc
  · next heq =>
    cases heq
    obtain ⟨rfl, hsets⟩ := hc
    simp only [Stmt.run, UserStmt.run] at h
    split at h <;> cases h
    obtain ⟨u, hu, ⟨-, rfl⟩ | ⟨hsel, rfl⟩⟩ := Table.of_mem_updateWhere hu'
    · exact hown password hsets
    · simp [hid] at hsel
  · exact hc.elim

/-- Every statement of the regime keeps the property, if whoever writes a hash hashes its own
password. -/
theorem StoresLastPassword.effect (hs : StoresLastPassword P s) (hown : HashesOwn P r q)
    (h : (rehashesStand P).Effect (store P) p r q s x s') : StoresLastPassword P s' := by
  intro user_id password hsince u' hu' hid
  cases h with
  | fail _ =>
    refine hs user_id password ?_ u' hu' hid
    rcases hsince with hc | ⟨-, hsince⟩
    · unfold commitsPassword at hc
      split at hc
      · next heq => cases heq
      · exact hc.elim
    · exact hsince
  | run hadmits hrun =>
    rcases hsince with hc | ⟨hr, hsince⟩
    · exact .of_commits hrun hown hc hu' hid
    · obtain ⟨u, hu, huid, hsame | hwrites⟩ := Stmt.hash_origin hrun hu'
      · rw [hsame]
        exact hs user_id password hsince u hu (huid.symm.trans hid)
      have hstored := hs user_id password hsince u hu (huid.symm.trans hid)
      cases q with
      | users q =>
        cases q with
        | update_password id hash =>
          obtain ⟨rfl, -⟩ := hwrites
          simp only [store, Stmt.run, UserStmt.run] at hrun
          split at hrun <;> cases hrun
          exact absurd (huid.symm.trans hid) hr
        | replace_password_hash id hash =>
          obtain ⟨rfl, rfl⟩ := hwrites
          obtain ⟨own, hlogin, hverifies⟩ := hown
          -- The stored hash verifies the rehashed password, which therefore is the last one set.
          have hown : P.argon2_verify own u.password_hash = true := by
            cases r <;> cases hlogin
            by_contra hne
            exact hadmits.2 ⟨u, hu, rfl, Bool.eq_false_iff.mpr hne⟩
          rwa [(hstored own).mp hown] at hverifies
        | _ => exact hwrites.elim
      | _ => exact hwrites.elim

end Effect

/-- The logic of password hashes. -/
def hashLogic (P : Platform) : Logic (rehashesStand P) (store P) where
  inv := StoresLastPassword P
  rely _ _ _ := True
  pre _ r q _ := HashesOwn P r q
  rely_refl _ _ := trivial
  rely_trans _ _ := trivial
  sound hs hown h := ⟨hs.effect hown h, fun _ _ => trivial⟩
  stop_sound _ hs := ⟨hs, fun _ _ => trivial⟩
  pass_sound hs := ⟨hs, fun _ => trivial⟩

/-! ### The scripts -/

/-- What the property counts on: Argon2 verifies exactly the password that was hashed. -/
def Argon2Exact (P : Platform) : Prop :=
  ∀ password salt, Verifies P password (P.argon2_hash password salt)

section Scripts

variable {d : Deployment} {r : Request} {ε α β : Type}

/-- `Script.Does` for this logic, with no expectation about answers. -/
abbrev Owns (d : Deployment) (r : Request) (x : Code ε α) (Φ : Except ε α → Prop) : Prop :=
  x.Does (HashesOwn d.platform r) (fun _ _ => True) Φ

theorem HashesOwn.of_onSessions {P : Platform} (q : Stmt) (hq : q.onSessions) :
    HashesOwn P r q := by
  unfold Stmt.onSessions at hq
  split at hq <;> trivial

theorem owns_of_onSessions {x : Code ε α} (h : x.Issues Stmt.onSessionRows) :
    Owns d r x fun _ => True :=
  (h.mono fun q hq => .of_onSessions q hq.onSessions).does

theorem hash_owns (hargon : Argon2Exact d.platform) (password : String) :
    Owns d r (IdentityService.hash d password) fun y =>
      ∀ hash, y = .ok hash → Verifies d.platform password hash := by
  simp only [Owns, IdentityService.hash, Script.does_bind, Script.does_query, Script.pure_eq,
    Script.does_ret]
  refine ⟨trivial, fun salt _ hash heq => ?_, fun _ _ _ heq => by cases heq⟩
  cases heq
  exact hargon password salt

/-- A rehash is a hash of the password the login has verified. -/
theorem upgrade_password_hash_owns (hargon : Argon2Exact d.platform) (user_id : Uuid)
    {password : String} (hr : r.login_password = some password) :
    Owns d r (IdentityService.upgrade_password_hash d user_id password) fun _ => True := by
  refine Script.does_bind.mpr (Script.does_result.mpr ((hash_owns hargon password).mono ?_))
  rintro (e | hash) hy
  · trivial
  · exact Script.does_bind.mpr ⟨⟨password, hr, hy hash rfl⟩, fun _ _ => trivial⟩

theorem count_failure_owns (user : UserRecord) (now : Timestamp) :
    Owns d r (IdentityService.count_failure d user now) fun _ => True := by
  refine Script.Issues.does ?_
  refine (Script.Issues.when fun _ => Script.issues_query trivial).bind fun _ =>
    (Script.issues_query trivial).bind fun _ => expires_at_issues.bind fun _ =>
    (Script.issues_query trivial).bind fun locked => ?_
  split <;> exact Script.issues_throw

theorem verify_credentials_owns (hargon : Argon2Exact d.platform) (email : String)
    {password : String} (hr : r.login_password = some password) :
    Owns d r (IdentityService.verify_credentials d email password) fun _ => True := by
  refine (Script.issues_query trivial).does.bind (fun found _ => ?_) fun _ _ => trivial
  cases found with
  | none => trivial
  | some user =>
    refine (Script.issues_query trivial).does.bind (fun now _ => ?_) fun _ _ => trivial
    split
    · trivial
    split
    · trivial
    split
    · exact count_failure_owns user now
    split
    · trivial
    · refine Script.Does.bind (Script.does_when.mpr
        ⟨fun _ => upgrade_password_hash_owns hargon user.id hr, fun _ => trivial⟩) (fun _ _ => ?_)
        fun _ _ => trivial
      exact (Script.issues_query trivial).does.bind (fun _ _ => trivial) fun _ _ => trivial

theorem login_owns (hargon : Argon2Exact d.platform) (email password : String)
    (client : ClientInfo) :
    Owns d (.login email password client) (AuthService.login d email password client)
      fun _ => True := by
  refine (verify_credentials_owns hargon email rfl).mapError.bind (fun user _ => ?_)
    fun _ _ => trivial
  refine owns_of_onSessions ((AuthService.start_session_issues user.id client).bind fun _ => ?_)
  exact (IdentityService.public_user_issues user).mapError.bind fun _ => Script.issues_ret

/-- Setting a password, however it was authorized. -/
theorem set_password_owns (hargon : Argon2Exact d.platform) {password : String}
    (hr : r.sets_password = some password) (user_id : Uuid) {rest : Code IdentityError Unit}
    (hrest : rest.Issues Stmt.onSessionRows) :
    Owns d r (do
      let password_hash ← IdentityService.hash d password
      ask (.users (.update_password user_id password_hash))
      rest) fun _ => True := by
  refine (hash_owns hargon password).bind (fun hash hy => ?_) fun _ _ => trivial
  have hwrite : Owns d r (ask (.users (.update_password user_id hash)) : Code IdentityError Unit)
      fun _ => True := by
    refine Script.does_query.mpr ⟨fun password' hset => ?_, fun _ _ => trivial, fun _ _ => trivial⟩
    cases hr.symm.trans hset
    exact hy hash rfl
  exact hwrite.bind (fun _ _ => owns_of_onSessions hrest) fun _ _ => trivial

theorem reset_password_owns (hargon : Argon2Exact d.platform) (token : SecretToken)
    (new_password : String) :
    Owns d (.reset_password token new_password)
      (IdentityService.reset_password d token new_password) fun _ => True := by
  refine (Script.issues_query trivial).does.bind (fun found _ => ?_) fun _ _ => trivial
  cases found with
  | none => trivial
  | some user_id =>
    exact set_password_owns hargon rfl user_id
      ((IdentityService.revoke_sessions_issues user_id none).bind fun _ =>
        (Script.issues_query trivial).bind fun _ => Script.issues_ret)

theorem change_password_owns (hargon : Argon2Exact d.platform) (claims : AccessClaims)
    (current_password new_password : String) :
    Owns d (.change_password claims current_password new_password)
      (change_password d claims current_password new_password) fun _ => True := by
  refine (owns_of_onSessions (AuthService.authenticate_issues claims).mapError).bind
    (fun user _ => ?_) fun _ _ => trivial
  refine (owns_of_onSessions (Script.issues_query trivial).mapError).bind (fun found _ => ?_)
    fun _ _ => trivial
  cases found with
  | none => trivial
  | some record =>
    refine Script.does_mapError.mpr ?_
    unfold IdentityService.change_password
    split
    · trivial
    · exact set_password_owns hargon rfl record.id
        ((IdentityService.revoke_sessions_issues record.id _).bind fun _ => Script.issues_ret)

end Scripts

variable {d : Deployment} {db : Database} {w : World}

/-- **An account accepts the password last set for it and no other**, in every run in which a login
rehashes only what the stored hash still verifies. -/
theorem storesLastPassword_of_reaches (hargon : Argon2Exact d.platform)
    (h : Reaches d (rehashesStand d.platform) (World.start db) w) :
    StoresLastPassword d.platform w.shared := by
  have hstart : StoresLastPassword d.platform (World.start db).shared :=
    fun _ _ hsince => absurd hsince since_nil
  have howns : ∀ r, r.handlesPasswords → Owns d r (Request.code d r) fun _ => True := by
    intro r hr
    cases r with
    | login email password client => exact login_owns hargon email password client
    | change_password claims current_password new_password =>
      exact change_password_owns hargon claims current_password new_password
    | reset_password token new_password => exact reset_password_owns hargon token new_password
    | _ => exact hr.elim
  have hspec : ∀ p r s, (rehashesStand d.platform).spawns r →
      StoresLastPassword d.platform s → (∀ e ∈ s.log, e.pid ≠ p) →
      (hashLogic d.platform).wp p r (Request.code d r) (fun _ _ => True) s :=
    fun p r s hr _ _ => Logic.wp_of_does (HashesOwn d.platform r) (fun _ _ => True)
      (fun _ => True) (fun _ => True) (fun _ _ => trivial) (fun hq _ _ => hq)
      (fun _ _ _ _ _ => ⟨trivial, trivial⟩) (fun _ _ => trivial) (howns r hr) trivial
  have hsafe : (hashLogic d.platform).Safe (fun _ _ _ _ => True) w :=
    Logic.safe_of_reaches hspec (.start hstart) h
  exact hsafe.inv

/-! ### A login and a reset that overlap

The login has verified the old password and is about to store a new hash of it. The reset comes
first, and the old password is back afterwards. -/

/-- The sample platform hashes as it should. -/
theorem argon2Exact_sample : Argon2Exact .sample := by
  intro password salt other
  have hstars : ((List.replicate (salt + 1) '*' ++ '$' :: password.toList).dropWhile
      (· == '*')).drop 1 = password.toList := by
    rw [List.dropWhile_append_of_pos fun c hc => by rw [List.eq_of_mem_replicate hc]; rfl]
    rfl
  simp only [Platform.sample, String.toList_ofList, hstars, beq_iff_eq, String.toList_inj]
  exact eq_comm

instance (user_id : Uuid) (password : String) : DecidablePred (commitsPassword user_id password) :=
  fun e => by
    delta commitsPassword
    split <;> infer_instance

instance (user_id : Uuid) : DecidablePred (replacesPassword user_id) := fun e => by
  delta replacesPassword
  split <;> infer_instance

instance : DecidablePred Request.handlesPasswords := fun r => by
  induction r using Request.casesOn <;> (delta Request.handlesPasswords; infer_instance)

instance (P : Platform) (r : Request) (q : Stmt) : Decidable (rehashesStale P db r q) := by
  delta rehashesStale
  split <;> infer_instance

/-- The account 8 has the password `old` under an outdated hash, and a link to reset it. -/
def outdatedHash : Database :=
  { Database.sample with
    users := Table.empty.insertNew
      { UserRecord.sample 8 "ada@example.org" with password_hash := "$old" }
    one_time_tokens := Table.empty.insertNew
      { id := 7, user_id := 8, purpose := .password_reset, token_hash := ⟨⟨5⟩⟩, created_at := 0
        expires_at := seconds 3600, consumed_at := none } }

/-- A login with the old password has verified it and computed its new hash. -/
def slowLogin : List Step :=
  [.spawn 0 (.login "ada@example.org" "old" ⟨none, none⟩), .step 0 {}, .step 0 {},
    .step 0 { id := 40 }]

/-- The password is reset. -/
def reset : List Step :=
  [.spawn 1 (.reset_password ⟨5⟩ "new"), .step 1 {}, .step 1 { id := 41 }, .step 1 {}]

/-- **The old password comes back**: the login writes its hash after the reset. -/
theorem not_storesLastPassword : ¬ ∀ w, Reaches .sample (Regime.free Request.handlesPasswords)
    (World.start outdatedHash) w → StoresLastPassword .sample w.shared := by
  intro hall
  have hstores := hall _ (Deployment.sample.reaches_play _ (slowLogin ++ reset ++ [.step 0 {}])
    outdatedHash)
  have hsince : Since (commitsPassword 8 "new") (replacesPassword 8)
      (Deployment.sample.play (Regime.free Request.handlesPasswords)
        (slowLogin ++ reset ++ [.step 0 {}]) outdatedHash).shared.log := by decide +kernel
  have hold : ∃ u ∈ (Deployment.sample.play (Regime.free Request.handlesPasswords)
      (slowLogin ++ reset ++ [.step 0 {}]) outdatedHash).shared.db.users.rows,
      u.id = 8 ∧ Platform.sample.argon2_verify "old" u.password_hash = true := by decide +kernel
  obtain ⟨u, hu, hid, hverify⟩ := hold
  have heq : "old" = "new" := (hstores 8 "new" hsince u hu hid "old").mp hverify
  simp at heq

/-- The login writes its hash first, and the reset stands. -/
theorem storesLastPassword_loginFirst :
    let s := (Deployment.sample.play (rehashesStand .sample) (slowLogin ++ [.step 0 {}] ++ reset)
      outdatedHash).shared
    Since (commitsPassword 8 "new") (replacesPassword 8) s.log ∧ StoresLastPassword .sample s :=
  ⟨by decide +kernel, storesLastPassword_of_reaches argon2Exact_sample
    (Deployment.sample.reaches_play (rehashesStand .sample) _ outdatedHash)⟩

end SubmitSnap
