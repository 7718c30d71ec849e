import SubmitSnap.Session.Rotation

/-!
# The transactions on sessions

What the logic of sessions says of opening a session and of a refresh: the commits meet their
preconditions, whatever the others do meanwhile, and a refresh ends in one of three ways.

## The three ends of a refresh

A token that is presented is unknown, used or good. An unknown one leads nowhere. A good one is
exchanged under the locks that the lookup has taken. A used one has been exchanged before, so
somebody shows a token he should no longer have, and the session is revoked, in a statement of its
own after the transaction has ended. Since that statement may fail, what can be said of a refresh
that was shown a used token is: the session is revoked, or something failed. `RefreshEnds` says
this of every end, good or bad, so that the result about runs does not have to look into the
script again.

## Main definitions

* `RefreshEnds` — what a refresh has done when it has come to its end.

## Main results

* `wp_start_session`, `wp_refresh` — the requests that commit.
* `wp_of_plain` — everything else.
* `wp_handlesSessions` — all of them.
-/

namespace SubmitSnap

open Interleave

/-- `p` has not been shown a used token. -/
def Silent (p : ℕ) (log : List Event) : Prop :=
  ∀ e ∈ log, e.pid = p → ∀ session_id, ¬ ShowsUsed session_id e

/-- A statement of `p` has failed. -/
def HasFailed (p : ℕ) (log : List Event) : Prop := ∃ e ∈ log, e.pid = p ∧ Fails e

/-- How the transaction of a refresh ends. -/
def OutcomeOf (p : ℕ) (token : SecretToken) (s : State) : Except AuthError RefreshOutcome → Prop
  | .ok (.rotated _ _) => Silent p s.log ∧ ∃ e ∈ s.log, e.pid = p ∧ Redeems token e
  | .ok (.reused _ session_id) => (∃ row ∈ s.db.sessions.rows, row.id = session_id) ∧
    ∀ e ∈ s.log, e.pid = p → ∀ id, ShowsUsed id e → id = session_id
  | .ok .invalid => Silent p s.log
  | .error _ => HasFailed p s.log

/-- What a refresh has done when it has come to its end, well or not: if it ends well, it has
exchanged its token; if it was shown a used one, the session is revoked, unless a statement has
failed. -/
structure RefreshEnds (p : ℕ) (token : SecretToken) (well : Bool) (s : State) : Prop where
  redeems : well = true → ∃ e ∈ s.log, e.pid = p ∧ Redeems token e
  revokes : ∀ e ∈ s.log, e.pid = p → ∀ session_id, ShowsUsed session_id e →
    s.db.Revoked session_id ∨ HasFailed p s.log

section Scripts

variable {d : Deployment} {G : Regime} {db₀ : Database} {p : ℕ} {r : Request} {s s₁ s₂ s' : State}
  {q : Stmt} {x : Except Failure q.Reply} {token : SecretToken} {t : SessionToken}
  {sess : SessionRecord} {n : ℕ} {ε α : Type}

/-! ### What survives -/

theorem heldName_of_others (h : sessionNames.Held p n s.log) (he : Others p s s') :
    sessionNames.Held p n s'.log :=
  (he.since_iff (fun _ => pid_of_gives) fun _ => pid_of_uses).mpr h

/-- A name stays held while its holder executes something other than a commit. -/
theorem heldName_query (h : sessionNames.Held p n s.log) (he : Others p s s₁)
    (hx : G.Effect (store d.platform) p r q s₁ x s₂) (hq : ∀ ws, q ≠ .commit ws) :
    sessionNames.Held p n s₂.log := by
  rw [hx.log_eq]
  refine .inr ⟨fun hu => ?_, heldName_of_others h he⟩
  unfold sessionNames at hu
  dsimp only at hu
  split at hu
  · next heq =>
    cases heq
    exact hq _ rfl
  · exact hu

theorem Silent.of_others (h : Silent p s.log) (he : Others p s s') : Silent p s'.log :=
  fun e hmem hp => h e ((he.mem_iff hp).mp hmem) hp

/-- Statements other than a lookup keep `p` silent. -/
theorem Silent.query (h : Silent p s.log) (he : Others p s s₁)
    (hx : G.Effect (store d.platform) p r q s₁ x s₂)
    (hq : ∀ session_id, ¬ ShowsUsed session_id ⟨p, r, s₁.db, q, x⟩) : Silent p s₂.log := by
  intro e hmem hp
  rw [hx.log_eq] at hmem
  rcases List.mem_cons.mp hmem with rfl | hmem
  · exact hq
  · exact h.of_others he e hmem hp

theorem HasFailed.of_error {e : Failure} (hx : G.Effect (store d.platform) p r q s (.error e) s') :
    HasFailed p s'.log :=
  ⟨_, hx.mem_self, rfl, e, rfl⟩

theorem HasFailed.of_others (h : HasFailed p s.log) (he : Others p s s') : HasFailed p s'.log := by
  obtain ⟨e, hmem, hp⟩ := h
  exact ⟨e, he.mem hmem, hp⟩

/-- What `p` has found survives what the others do. -/
theorem Exchangeable.env (h : Exchangeable p r s token t sess)
    (he : (sessionLogic d.platform G db₀).Env p s s') : Exchangeable p r s' token t sess where
  toPresented := he.rely.presented t sess h.toPresented
  request := h.request
  shown := h.shown
  live := h.live
  active := h.active
  timely e hmem hp := h.timely e ((he.others.mem_iff hp).mp hmem) hp

/-- The statements of an exchange that come before its commit. -/
def SessionStmt.prepares : SessionStmt → Prop
  | insert_replacement _ _ _ _ | lock_token _ | lock_session _ => True
  | _ => False

/-- They change nothing but locks. -/
theorem Exchangeable.query {q : SessionStmt} {a : q.Reply} (h : Exchangeable p r s token t sess)
    (he : (sessionLogic d.platform G db₀).Env p s s₁)
    (hx : G.Effect (store d.platform) p r (.sessions q) s₁ (.ok a) s₂) (hq : q.prepares) :
    Exchangeable p r s₂ token t sess := by
  have h₁ := h.env he
  obtain ⟨-, c, db, hrun, rfl⟩ := hx.of_ok
  have hsame : SameSessions s₁.db db ∧ ∀ l ∈ s₁.db.locks, l ∈ db.locks := by
    cases q with
    | insert_replacement _ _ _ _ | lock_token _ | lock_session _ =>
      simp only [store, Stmt.run, SessionStmt.run] at hrun
      (repeat' split at hrun) <;> cases hrun
      all_goals first
        | exact ⟨⟨rfl, rfl⟩, fun _ hl => hl⟩
        | exact ⟨⟨rfl, rfl⟩, fun _ hl => List.mem_cons_of_mem _ hl⟩
    | _ => exact hq.elim
  obtain ⟨⟨hsessions, htokens⟩, hlocks⟩ := hsame
  refine ⟨⟨htokens ▸ h₁.mem_token, hsessions ▸ h₁.mem_session, h₁.belongs,
    hlocks _ h₁.holds_token, hlocks _ h₁.holds_session⟩, h₁.request, h₁.shown, h₁.live, h₁.active,
    fun e hmem hp hlooks => ?_⟩
  rcases List.mem_cons.mp hmem with rfl | hmem
  · exact hlooks.elim
  · exact h₁.timely e hmem hp hlooks

/-- The statements that commit nothing, delete no account, and show no token. -/
def Stmt.plain : Stmt → Prop
  | .commit _ | .users (.delete_apply _) | .sessions (.lookup _) => False
  | _ => True

theorem Stmt.plain.pre (hq : q.plain) : SessionPre p r s q := by
  unfold SessionPre
  split
  · exact hq.elim
  · exact hq.elim
  · trivial

theorem Stmt.plain.not_showsUsed {id : Uuid} {db : Database} (hq : q.plain) :
    ¬ ShowsUsed id ⟨p, r, db, q, x⟩ := by
  intro h
  unfold ShowsUsed at h
  split at h
  · next heq =>
    cases heq
    exact hq
  · exact h

/-- Code that commits nothing. -/
theorem wp_of_plain {x : Code ε α} (hx : x.Issues Stmt.plain) :
    (sessionLogic d.platform G db₀).wp p r x (fun _ _ => True) s :=
  Logic.wp_of_does Stmt.plain (fun _ _ => True) (fun _ => True) (fun _ => True)
    (fun _ _ => trivial) (fun hq _ _ => hq.pre) (fun _ _ _ _ _ => ⟨trivial, trivial⟩)
    (fun _ _ => trivial) hx.does trivial

/-! ### What commits nothing -/

theorem session_user_plain (user_id : Uuid) :
    (AuthService.session_user user_id).Issues Stmt.plain := by
  refine ((Script.issues_query trivial).mapError).bind fun found => ?_
  cases found with
  | none => exact Script.issues_throw
  | some user =>
    dsimp only
    split
    · exact Script.issues_throw
    · exact (Script.issues_query trivial |>.bind fun _ =>
        Script.issues_ret).mapError

theorem issue_plain (user_id session_id : Uuid) :
    (AuthService.issue d user_id session_id).Issues Stmt.plain :=
  (Script.issues_query trivial).bind fun _ => Script.issues_ret

theorem public_user_plain (user : UserRecord) :
    (IdentityService.public_user user).Issues Stmt.plain :=
  (Script.issues_query trivial).bind fun _ => Script.issues_ret

theorem revoke_sessions_plain (user_id : Uuid) (keep : Option Uuid) :
    (IdentityService.revoke_sessions user_id keep).Issues Stmt.plain :=
  (Script.issues_query trivial).bind fun _ => Script.issues_query trivial

theorem load_plain (id : Uuid) : (IdentityService.load id).Issues Stmt.plain := by
  refine (Script.issues_query trivial).bind fun found => ?_
  cases found <;> trivial

theorem account_plain (id : Uuid) : (IdentityService.account id).Issues Stmt.plain :=
  (load_plain id).bind public_user_plain

theorem authenticate_plain (claims : AccessClaims) :
    (AuthService.authenticate d claims).Issues Stmt.plain := by
  refine (Script.issues_query trivial).bind fun now => ?_
  split
  · exact Script.issues_throw
  · refine (Script.issues_query trivial).bind fun active => ?_
    split
    · exact Script.issues_throw
    · exact (session_user_plain _).bind fun _ => Script.issues_ret

theorem logout_all_plain (user_id : Uuid) : (AuthService.logout_all user_id).Issues Stmt.plain :=
  (Script.issues_query trivial).bind fun _ => (Script.issues_query trivial).bind fun _ =>
    Script.issues_ret

theorem hash_plain (password : String) : (IdentityService.hash d password).Issues Stmt.plain :=
  (Script.issues_query trivial).bind fun _ => Script.issues_ret

theorem verify_credentials_plain (email password : String) :
    (IdentityService.verify_credentials d email password).Issues Stmt.plain := by
  refine (Script.issues_query trivial).bind fun found => ?_
  cases found with
  | none => exact Script.issues_throw
  | some user =>
    refine (Script.issues_query trivial).bind fun now => ?_
    split
    · exact Script.issues_throw
    · split
      · exact Script.issues_throw
      · split
        · refine (Script.Issues.when fun _ => Script.issues_query trivial).bind fun _ => ?_
          refine (Script.issues_query trivial).bind fun _ => expires_at_issues.bind fun _ => ?_
          refine (Script.issues_query trivial).bind fun locked => ?_
          split <;> exact Script.issues_throw
        · split
          · exact Script.issues_throw
          · refine (Script.Issues.when fun _ => ?_).bind fun _ =>
              (Script.issues_query trivial).bind fun _ =>
              Script.issues_ret
            refine (hash_plain password).result.bind fun hashed => ?_
            rcases hashed with e | hashed
            · exact Script.issues_ret
            · exact (Script.issues_attempt trivial).bind fun _ => Script.issues_ret

theorem change_password_plain (claims : AccessClaims) (current_password new_password : String) :
    (change_password d claims current_password new_password).Issues Stmt.plain := by
  refine (authenticate_plain claims).mapError.bind fun user => ?_
  refine (Script.issues_query trivial).mapError.bind fun found => ?_
  cases found with
  | none => exact Script.issues_throw
  | some record =>
    refine Script.Issues.mapError ?_
    unfold IdentityService.change_password
    split
    · exact Script.issues_throw
    · exact (hash_plain new_password).bind fun _ => (Script.issues_query trivial).bind fun _ =>
        (revoke_sessions_plain _ _).bind fun _ => Script.issues_ret

theorem reset_password_plain (token : SecretToken) (new_password : String) :
    (IdentityService.reset_password d token new_password).Issues Stmt.plain := by
  refine (Script.issues_query trivial).bind fun found => ?_
  cases found with
  | none => exact Script.issues_throw
  | some user_id =>
    exact (hash_plain new_password).bind fun _ => (Script.issues_query trivial).bind fun _ =>
      (revoke_sessions_plain _ _).bind fun _ => (Script.issues_query trivial).bind fun _ =>
        Script.issues_ret

theorem set_account_status_plain (target_id actor_id : Uuid) (status : UserStatus) :
    (IdentityService.set_account_status target_id status actor_id).Issues Stmt.plain := by
  unfold IdentityService.set_account_status
  split
  · exact Script.issues_throw
  · refine (Script.issues_query trivial).bind fun found => ?_
    split
    · exact Script.issues_throw
    · refine (Script.Issues.when fun _ => ?_).bind fun _ => (load_plain _).bind fun _ =>
        account_plain _
      exact (revoke_sessions_plain _ _).bind fun _ => Script.issues_ret

/-! ### Opening a session -/

theorem wp_create_session {user_id : Uuid} {client : ClientInfo}
    {session_expires_at token_expires_at : Timestamp}
    (hrequest : ∀ token, r ≠ .refresh token) (hs : SessionInv db₀ s)
    (hheld : sessionNames.Held p n s.log) :
    (sessionLogic d.platform G db₀).wp p r
      (SessionRepository.create user_id (hash_secret_token ⟨n⟩) client session_expires_at
        token_expires_at) (fun _ _ => True) s := by
  refine wp_transaction_post (fun _ => trivial) (fun _ => trivial) hs
    (fun s₁ now s₂ he₁ hx₂ hs₂ => ?_) (fun _ _ _ _ _ _ _ => trivial)
    fun _ _ _ _ _ _ _ _ _ _ => trivial
  have hheld₂ := heldName_query hheld he₁.others hx₂ fun _ => nofun
  refine Logic.wp_query_bind fun s₃ he₃ => ⟨trivial, fun row s₄ hx₄ _ => ?_,
    fun _ _ _ _ _ _ => trivial⟩
  have hheld₄ := heldName_query hheld₂ he₃.others hx₄ fun _ => nofun
  have hrow₄ : sessionNames.Held p row.id s₄.log := by
    rw [hx₄.log_eq]
    exact .inl ⟨rfl, rfl⟩
  refine Logic.wp_query_bind fun s₅ he₅ => ⟨trivial, fun t s₆ hx₆ _ => ?_,
    fun _ _ _ _ _ _ => trivial⟩
  have hheld₆ := heldName_query hheld₄ he₅.others hx₆ fun _ => nofun
  have hrow₆ := heldName_query hrow₄ he₅.others hx₆ fun _ => nofun
  have htoken₆ : sessionNames.Held p t.id s₆.log := by
    rw [hx₆.log_eq]
    exact .inl ⟨rfl, rfl⟩
  have ht : t.session_id = row.id ∧ t.token_hash = hash_secret_token ⟨n⟩ ∧ t.used_at = none ∧
      t.replaced_by = none := by
    obtain ⟨-, c, db, hrun, -⟩ := hx₆.of_ok
    simp only [store, Stmt.run, SessionStmt.run] at hrun
    (repeat' split at hrun) <;> cases hrun
    exact ⟨rfl, rfl, rfl, rfl⟩
  obtain ⟨hbelongs, hhash, hunused, hunreplaced⟩ := ht
  refine Logic.wp_query_bind fun s₇ he₇ => ⟨.create ?_, fun _ _ _ _ => fun _ _ => trivial,
    fun _ _ _ _ _ _ => trivial⟩
  refine ⟨hrequest, heldName_of_others hrow₆ he₇.others, heldName_of_others htoken₆ he₇.others, ?_,
    hbelongs, hunused, hunreplaced⟩
  rw [hhash]
  exact heldName_of_others hheld₆ he₇.others

theorem wp_start_session {user_id : Uuid} {client : ClientInfo}
    (hrequest : ∀ token, r ≠ .refresh token) :
    (sessionLogic d.platform G db₀).wp p r (AuthService.start_session d user_id client)
      (fun _ _ => True) s := by
  refine Logic.wp_query_bind fun s₁ _ => ⟨trivial, fun token s₂ hx₂ _ => ?_,
    fun _ _ _ _ _ _ => trivial⟩
  have hheld₂ : sessionNames.Held p token s₂.log := by
    rw [hx₂.log_eq]
    exact .inl ⟨rfl, rfl⟩
  refine Logic.wp_query_bind fun s₃ he₃ => ⟨trivial, fun session_now s₄ hx₄ _ => ?_,
    fun _ _ _ _ _ _ => trivial⟩
  have hheld₄ := heldName_query hheld₂ he₃.others hx₄ fun _ => nofun
  refine wp_expires_at_bind (fun _ => ?_) fun _ _ _ => trivial
  refine Logic.wp_query_bind fun s₅ he₅ => ⟨trivial, fun token_now s₆ hx₆ hs₆ => ?_,
    fun _ _ _ _ _ _ => trivial⟩
  refine wp_expires_at_bind (fun _ => ?_) fun _ _ _ => trivial
  have hheld₆ := heldName_query hheld₄ he₅.others hx₆ fun _ => nofun
  refine Logic.wp_seq hs₆ (wp_create_session hrequest hs₆ hheld₆) fun session_id s₇ _ => ?_
  exact wp_of_plain ((issue_plain _ _).bind fun _ => Script.issues_ret)

/-! ### A refresh -/

/-- **The exchange of a token.** -/
theorem wp_rotate {new_expires_at now : Timestamp} (h : Exchangeable p r s token t sess)
    (hheld : sessionNames.Held p n s.log) (hsilent : Silent p s.log) :
    (sessionLogic d.platform G db₀).wp p r
      (SessionRepository.rotate (.ofRows t sess) (hash_secret_token ⟨n⟩) new_expires_at now)
      (fun y s' => OutcomeOf p token s' y) s := by
  refine Logic.wp_query_bind fun s₁ he₁ => ⟨trivial, fun t' s₂ hx₂ _ => ?_,
    fun e s₂ hx₂ _ s₃ he₃ => (HasFailed.of_error hx₂).of_others he₃.others⟩
  have h₂ := h.query he₁ hx₂ trivial
  have hheld₂ := heldName_query hheld he₁.others hx₂ (by simp)
  have hsilent₂ := hsilent.query he₁.others hx₂ fun _ => Stmt.plain.not_showsUsed trivial
  have htoken₂ : sessionNames.Held p t'.id s₂.log := by
    rw [hx₂.log_eq]
    exact .inl ⟨rfl, rfl⟩
  -- The new token belongs to the locked session, and does not outlive it.
  have ht' : t'.session_id = sess.id ∧ t'.token_hash = hash_secret_token ⟨n⟩ ∧ t'.used_at = none ∧
      t'.replaced_by = none ∧ t'.expires_at ≤ sess.expires_at := by
    obtain ⟨-, c, db, hrun, -⟩ := hx₂.of_ok
    simp only [store, Stmt.run, SessionStmt.run] at hrun
    split at hrun
    · cases hrun
    · next found hfind =>
      obtain ⟨hmem, hid⟩ := Table.find?_eq_some.mp hfind
      have hfound : found = sess :=
        s₁.db.sessions.eq_of_key_eq hmem (h.env he₁).mem_session hid
      (repeat' split at hrun) <;> cases hrun
      exact ⟨rfl, rfl, rfl, rfl, hfound ▸ Nat.min_le_right _ _⟩
  obtain ⟨hbelongs, hhash, hunused, hunreplaced, hwithin⟩ := ht'
  refine Logic.wp_query_bind fun s₃ he₃ => ⟨trivial, fun _ s₄ hx₄ _ => ?_,
    fun e s₄ hx₄ _ s₅ he₅ => (HasFailed.of_error hx₄).of_others he₅.others⟩
  have h₄ := h₂.query he₃ hx₄ trivial
  have hheld₄ := heldName_query hheld₂ he₃.others hx₄ (by simp)
  have htoken₄ := heldName_query htoken₂ he₃.others hx₄ (by simp)
  have hsilent₄ := hsilent₂.query he₃.others hx₄ fun _ => Stmt.plain.not_showsUsed trivial
  refine Logic.wp_query_bind fun s₅ he₅ => ⟨trivial, fun _ s₆ hx₆ _ => ?_,
    fun e s₆ hx₆ _ s₇ he₇ => (HasFailed.of_error hx₆).of_others he₇.others⟩
  have h₆ := h₄.query he₅ hx₆ trivial
  have hheld₆ := heldName_query hheld₄ he₅.others hx₆ (by simp)
  have htoken₆ := heldName_query htoken₄ he₅.others hx₆ (by simp)
  have hsilent₆ := hsilent₄.query he₅.others hx₆ fun _ => Stmt.plain.not_showsUsed trivial
  refine Logic.wp_query_bind fun s₇ he₇ => ⟨.rotate (?_ : Exchanges p r s₇ token t sess t'),
    fun _ s₈ hx₈ _ s₉ he₉ => ⟨?_, ?_⟩,
    fun e s₈ hx₈ _ s₉ he₉ => (HasFailed.of_error hx₈).of_others he₉.others⟩
  · refine ⟨h₆.env he₇, heldName_of_others htoken₆ he₇.others, ?_, hbelongs, hunused, hunreplaced,
      hwithin⟩
    rw [hhash]
    exact heldName_of_others hheld₆ he₇.others
  · refine Silent.of_others ?_ he₉.others
    exact hsilent₆.query he₇.others hx₈ fun _ => id
  · refine ⟨_, he₉.others.mem hx₈.mem_self, rfl, ?_⟩
    obtain rfl := h.request
    rfl

/-- What a lookup finds. -/
theorem SessionStmt.run_lookup {c : Choice} {db db' : Database} {hash : TokenHash}
    {lookup : TokenLookup}
    (h : (SessionStmt.lookup hash).run p c db = some (db', .ok (some lookup))) :
    ∃ t sess, t.token_hash = hash ∧ lookup = .ofRows t sess ∧ Presented p t sess db' := by
  simp only [SessionStmt.run] at h
  split at h
  · cases h
  · next t hfind =>
    split at h
    · cases h
    · next sess hsession =>
      split at h <;> cases h
      obtain ⟨hmem, hid⟩ := Table.find?_eq_some.mp hsession
      refine ⟨t, sess, by simpa using List.find?_some hfind, rfl,
        List.mem_of_find?_eq_some hfind, hmem, hid.symm, ?_, ?_⟩
      · exact Locks.holds_acquire_self.acquire
      · exact Locks.holds_acquire_self

/-- **The transaction of a refresh.** -/
theorem wp_refresh_tx {new_expires_at : Timestamp} (hrequest : r = .refresh token)
    (hs : SessionInv db₀ s) (hheld : sessionNames.Held p n s.log) (hsilent : Silent p s.log) :
    (sessionLogic d.platform G db₀).wp p r
      (SessionRepository.refresh (hash_secret_token token) (hash_secret_token ⟨n⟩) new_expires_at)
      (fun y s' => OutcomeOf p token s' y) s := by
  refine wp_transaction_post (fun _ => trivial) (fun _ => trivial) hs
    (fun s₁ tx_now s₂ he₁ hx₂ hs₂ => ?_)
    (fun s₁ e s₂ s₃ _ hx₂ he₃ => (HasFailed.of_error hx₂).of_others he₃.others)
    (fun y s₁ s₂ x s₃ s₄ hy he₂ hx₃ he₄ => ?_)
  · have hheld₂ := heldName_query hheld he₁.others hx₂ fun _ => nofun
    have hsilent₂ := hsilent.query he₁.others hx₂ fun _ => Stmt.plain.not_showsUsed trivial
    refine Logic.wp_query_bind fun s₃ he₃ => ⟨trivial, fun found s₄ hx₄ _ => ?_,
      fun e s₄ hx₄ _ s₅ he₅ => (HasFailed.of_error hx₄).of_others he₅.others⟩
    have hheld₄ := heldName_query hheld₂ he₃.others hx₄ fun _ => nofun
    have hsilent₃ := hsilent₂.of_others he₃.others
    cases found with
    | none =>
      refine fun s₅ he₅ => Silent.of_others ?_ he₅.others
      exact hsilent₂.query he₃.others hx₄ fun _ => id
    | some lookup =>
      obtain ⟨-, c, db, hrun, heq⟩ := hx₄.of_ok
      obtain ⟨t, sess, hshown, rfl, hpresented⟩ := SessionStmt.run_lookup (c := c) hrun
      have hpresented₄ : Presented p t sess s₄.db := heq ▸ hpresented
      dsimp only
      split
      · next hused =>
        -- The token is a used one.
        refine fun s₅ he₅ => ⟨?_, fun e hmem hp id hshows => ?_⟩
        · obtain ⟨row, hrow, hbecomes⟩ := he₅.rely.kept sess hpresented₄.mem_session
          exact ⟨row, hrow, hbecomes.id⟩
        · rw [he₅.others.mem_iff hp, hx₄.log_eq] at hmem
          rcases List.mem_cons.mp hmem with rfl | hmem
          · exact hshows.1.symm
          · exact absurd hshows (hsilent₃ e hmem hp id)
      · next hlive =>
        have hunused : t.used_at = none := by
          simpa [TokenLookup.ofRows] using hlive
        have hsilent₄ : Silent p s₄.log :=
          hsilent₂.query he₃.others hx₄ fun id hshows => hshows.2 hunused
        refine Logic.wp_query_bind fun s₅ he₅ => ⟨trivial, fun now s₆ hx₆ hs₆ => ?_,
          fun e s₆ hx₆ _ s₇ he₇ => (HasFailed.of_error hx₆).of_others he₇.others⟩
        have hsilent₆ := hsilent₄.query he₅.others hx₆ fun _ => Stmt.plain.not_showsUsed trivial
        split
        · exact fun s₇ he₇ => hsilent₆.of_others he₇.others
        · next hvalid =>
          simp only [TokenLookup.ofRows, Bool.or_eq_true, not_or,
            Option.not_isSome_iff_eq_none] at hvalid
          obtain ⟨-, c', db', hrun', rfl⟩ := hx₆.of_ok
          cases hrun'
          refine wp_rotate ⟨?_, hrequest, hshown, hunused, hvalid.1.1, fun e hmem _ _ => ?_⟩
            (heldName_query hheld₄ he₅.others hx₆ fun _ => nofun) hsilent₆
          · exact he₅.rely.presented t sess hpresented₄
          · exact lt_of_le_of_lt (hs₆.timely e hmem)
              (Nat.lt_of_not_le fun hle => hvalid.2 (decide_eq_true hle))
  · -- The end of the transaction shows nothing and changes no row.
    have hsame : SameSessions s₂.db s₃.db := by
      cases hx₃ with
      | fail _ => exact ⟨rfl, rfl⟩
      | run _ hrun =>
        cases hrun
        exact ⟨rfl, rfl⟩
    have hquiet : ∀ id, ¬ ShowsUsed id ⟨p, r, s₂.db, .rollback, x⟩ := fun _ =>
      Stmt.plain.not_showsUsed trivial
    have hmem : ∀ e ∈ s₁.log, e ∈ s₄.log := fun e he => he₄.others.mem (hx₃.mem (he₂.others.mem he))
    rcases y with e | _ | ⟨_, id⟩ | _
    · obtain ⟨e', he', hp⟩ := hy
      exact ⟨e', hmem e' he', hp⟩
    · obtain ⟨hsilent₁, e', he', hp⟩ := hy
      exact ⟨(hsilent₁.query he₂.others hx₃ hquiet).of_others he₄.others, e', hmem e' he', hp⟩
    · obtain ⟨⟨row, hrow, hid⟩, honly⟩ := hy
      obtain ⟨row₂, hrow₂, hbecomes₂⟩ := he₂.rely.kept row hrow
      obtain ⟨row₄, hrow₄, hbecomes₄⟩ := he₄.rely.kept row₂ (hsame.sessions ▸ hrow₂)
      refine ⟨⟨row₄, hrow₄, hbecomes₄.id.trans (hbecomes₂.id.trans hid)⟩,
        fun e he hp id' hshows => ?_⟩
      rw [he₄.others.mem_iff hp, hx₃.log_eq] at he
      rcases List.mem_cons.mp he with rfl | he
      · exact absurd hshows (hquiet id')
      · exact honly e ((he₂.others.mem_iff hp).mp he) hp id' hshows
    · exact (Silent.query hy he₂.others hx₃ hquiet).of_others he₄.others

/-- What follows an exchange adds nothing to it. -/
theorem wp_afterwards {x : Code ε α} (hx : x.Issues Stmt.plain) (hsilent : Silent p s.log)
    (hr : ∃ e ∈ s.log, e.pid = p ∧ Redeems token e) :
    (sessionLogic d.platform G db₀).wp p r x
      (fun _ s' => Silent p s'.log ∧ ∃ e ∈ s'.log, e.pid = p ∧ Redeems token e) s := by
  refine Logic.wp_of_does Stmt.plain (fun _ _ => True)
    (fun s => Silent p s.log ∧ ∃ e ∈ s.log, e.pid = p ∧ Redeems token e) (fun _ => True)
    (fun hK he => ?_) (fun hq _ _ => hq.pre) (fun {q s x s'} hq _ hK hx _ => ⟨trivial, ?_, ?_⟩)
    (fun _ hK => hK) hx.does ⟨hsilent, hr⟩
  · obtain ⟨hsilent, e, hmem, hp⟩ := hK
    exact ⟨hsilent.of_others he.others, e, he.others.mem hmem, hp⟩
  · exact hK.1.query (.refl p s) hx fun _ => hq.not_showsUsed
  · obtain ⟨-, e, hmem, hp⟩ := hK
    exact ⟨e, hx.mem hmem, hp⟩

theorem RefreshEnds.of_failed {well : Bool} (hwell : well = false) (h : HasFailed p s.log) :
    RefreshEnds p token well s :=
  ⟨fun heq => absurd (hwell.symm.trans heq) nofun, fun _ _ _ _ _ => .inr h⟩

theorem RefreshEnds.of_silent {well : Bool} (h : Silent p s.log)
    (hredeems : well = true → ∃ e ∈ s.log, e.pid = p ∧ Redeems token e) :
    RefreshEnds p token well s :=
  ⟨hredeems, fun e hmem hp id hshows => absurd hshows (h e hmem hp id)⟩

/-- **A refresh.** -/
theorem wp_refresh (hrequest : r = .refresh token) (hsilent : Silent p s.log) :
    (sessionLogic d.platform G db₀).wp p r (AuthService.refresh d token)
      (fun y s' => RefreshEnds p token y.isOk s') s := by
  refine Logic.wp_query_bind fun s₁ he₁ => ⟨trivial, fun n s₂ hx₂ _ => ?_,
    fun e s₂ hx₂ _ s₃ he₃ => .of_failed rfl ((HasFailed.of_error hx₂).of_others he₃.others)⟩
  have hsilent₂ := hsilent.query he₁.others hx₂ fun _ => Stmt.plain.not_showsUsed trivial
  have hheld₂ : sessionNames.Held p n s₂.log := by
    rw [hx₂.log_eq]
    exact .inl ⟨rfl, rfl⟩
  refine Logic.wp_query_bind fun s₃ he₃ => ⟨trivial, fun now s₄ hx₄ hs₄ => ?_,
    fun e s₄ hx₄ _ s₅ he₅ => .of_failed rfl ((HasFailed.of_error hx₄).of_others he₅.others)⟩
  have hsilent₄ := hsilent₂.query he₃.others hx₄ fun _ => Stmt.plain.not_showsUsed trivial
  have hheld₄ := heldName_query hheld₂ he₃.others hx₄ (by simp)
  refine wp_expires_at_bind (fun _ => ?_) fun _ s₅ he₅ =>
    .of_silent (hsilent₄.of_others he₅.others) nofun
  refine Logic.wp_bind hs₄ (wp_refresh_tx hrequest hs₄ hheld₄ hsilent₄)
    (fun outcome s₅ hs₅ hends => ?_)
    fun e s₅ _ hfailed => .of_failed rfl hfailed
  rcases outcome with ⟨user_id, session_id⟩ | ⟨user_id, session_id⟩ | _
  · obtain ⟨hsilent₅, hredeems⟩ := hends
    refine Logic.wp_mono (wp_afterwards ?_ hsilent₅ hredeems) fun y s₆ _ h =>
      .of_silent h.1 fun _ => h.2
    exact (session_user_plain user_id).bind fun _ => (issue_plain user_id session_id).bind
      fun _ => Script.issues_ret
  · obtain ⟨⟨row, hrow, hid⟩, honly⟩ := hends
    refine Logic.wp_query_bind fun s₆ he₆ => ⟨trivial,
      fun _ s₇ hx₇ _ s₈ he₈ => ⟨by simp [Except.isOk, Except.toBool], ?_⟩,
      fun e s₇ hx₇ _ s₈ he₈ => .of_failed rfl ((HasFailed.of_error hx₇).of_others he₈.others)⟩
    intro e hmem hp id hshows
    left
    rw [he₈.others.mem_iff hp, hx₇.log_eq] at hmem
    rcases List.mem_cons.mp hmem with rfl | hmem
    · exact absurd hshows (Stmt.plain.not_showsUsed trivial)
    · rw [honly e ((he₆.others.mem_iff hp).mp hmem) hp id hshows]
      refine he₈.rely.revoked ?_
      obtain ⟨row₆, hrow₆, hbecomes⟩ := he₆.rely.kept row hrow
      obtain ⟨-, c, db, hrun, rfl⟩ := hx₇.of_ok
      simp only [store, Stmt.run, SessionStmt.run] at hrun
      split at hrun <;> cases hrun
      refine ⟨_, List.mem_map_of_mem hrow₆, ?_, ?_⟩
      · split <;> exact hbecomes.id.trans hid
      · split
        · exact Option.some_ne_none _
        · next hsel =>
          simpa [hbecomes.id.trans hid, Option.isNone_iff_eq_none] using hsel
  · exact fun s₆ he₆ =>
      .of_silent (Silent.of_others hends he₆.others) (by simp [Except.isOk, Except.toBool])

/-! ### The requests -/

theorem wp_session_login {email password : String} {client : ClientInfo}
    (hrequest : ∀ token, r ≠ .refresh token) (hs : SessionInv db₀ s) :
    (sessionLogic d.platform G db₀).wp p r (AuthService.login d email password client)
      (fun _ _ => True) s := by
  refine Logic.wp_seq hs (wp_of_plain (verify_credentials_plain email password).mapError)
    fun user s₁ hs₁ => ?_
  refine Logic.wp_seq hs₁ (wp_start_session hrequest) fun tokens s₂ _ => ?_
  exact wp_of_plain ((public_user_plain user).mapError.bind fun _ => Script.issues_ret)

end Scripts

/-- The requests that open, refresh, use and revoke sessions. -/
def Request.handlesSessions : Request → Prop
  | login _ _ _ | refresh _ | authenticate _ | logout _ | logout_all _ | change_password _ _ _
  | reset_password _ _ | administer (.set_status _ _) _ | revoke_account_sessions _
  | open_session _ _ | revoke_others _ _ => True
  | _ => False

/-- They meet the logic's preconditions. -/
theorem wp_handlesSessions {d : Deployment} {G : Regime} {db₀ : Database} {p : ℕ} {r : Request}
    {s : State} (hr : r.handlesSessions) (hs : SessionInv db₀ s) (hfresh : ∀ e ∈ s.log, e.pid ≠ p) :
    (sessionLogic d.platform G db₀).wp p r (Request.code d r)
      (fun y s' => ∀ token, r = .refresh token → RefreshEnds p token y.isOk s') s := by
  have hother : (∀ token, r ≠ .refresh token) →
      (sessionLogic d.platform G db₀).wp p r (Request.code d r) (fun _ _ => True) s →
      (sessionLogic d.platform G db₀).wp p r (Request.code d r)
        (fun y s' => ∀ token, r = .refresh token → RefreshEnds p token y.isOk s') s :=
    fun hrequest h => Logic.wp_mono h fun _ _ _ _ token htoken => absurd htoken (hrequest token)
  cases r with
  | refresh token =>
    refine Logic.wp_mono (wp_refresh rfl fun e he hp => absurd hp (hfresh e he)) ?_
    rintro y s' _ h token' ⟨⟩
    exact h
  | login email password client =>
    exact hother (fun _ => nofun) (wp_session_login (fun _ => nofun) hs)
  | open_session user_id client =>
    refine hother (fun _ => nofun) ?_
    exact Logic.wp_seq hs (wp_start_session fun _ => nofun) fun _ _ _ _ _ => trivial
  | authenticate claims => exact hother (fun _ => nofun) (wp_of_plain (authenticate_plain claims))
  | logout session_id => exact hother (fun _ => nofun) (wp_of_plain (Script.issues_query trivial))
  | logout_all user_id => exact hother (fun _ => nofun) (wp_of_plain (logout_all_plain user_id))
  | change_password claims current_password new_password =>
    exact hother (fun _ => nofun)
      (wp_of_plain (change_password_plain claims current_password new_password))
  | reset_password token new_password =>
    exact hother (fun _ => nofun) (wp_of_plain (reset_password_plain token new_password))
  | revoke_account_sessions target_id =>
    exact hother (fun _ => nofun)
      (wp_of_plain ((load_plain target_id).bind fun _ => revoke_sessions_plain _ _))
  | revoke_others user_id keep =>
    exact hother (fun _ => nofun)
      (wp_of_plain ((revoke_sessions_plain user_id (some keep)).bind fun _ => Script.issues_ret))
  | administer op actor_id =>
    cases op with
    | set_status target_id status =>
      exact hother (fun _ => nofun)
        (wp_of_plain ((set_account_status_plain target_id actor_id status).bind fun _ =>
          Script.issues_ret))
    | _ => exact hr.elim
  | _ => exact hr.elim

end SubmitSnap
