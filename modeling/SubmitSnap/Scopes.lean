import SubmitSnap.Workers
import SubmitSnap.Organization.Membership

/-!
# Scopes: how far each request reaches

A request either works on accounts and sessions, or acts within one organization for one of its
members, or serves the public side of a form, or is a worker's pass. The first kind stays inside one
class of statements; for the others every handler is walked through once, for any property of
statements that the few statements of that handler have. What a request can do to which table, or
to which organization, is then read off without looking at its code again.

## Why a footprint per handler

Three questions come up for every handler: which tables can it reach, which organization can it
reach, and whose word does it take for that. They differ in the property of statements that is
asked for, and not in the walk through the code. So each handler is walked through once with the
property left open, and the hypotheses of its lemma are the property at the few statements the
handler issues. The lemmas are many and short, because the handlers are; there is no other place
where the code of the organization and webhook services is looked into again.

## Main definitions

* `Request.scope` — the organization a request acts in, and for whom.
* `Stmt.onAccounts`, `Stmt.onMembership` — the statements about accounts, and about the members of
  one organization.

## Main results

* `Request.issues_onAccounts` — the requests about accounts keep to accounts.
* `OrganizationService.add_member_does` and its like — a membership change keeps to the members of
  its organization.
-/

namespace SubmitSnap

open Interleave
open Interleave.Script

/-- An organization, and the account that acts in it. -/
structure Scope where
  organization_id : Uuid
  actor_id : Uuid
  deriving DecidableEq, Repr

/-- The organization a request acts in, and for whom. -/
def Request.scope : Request → Option Scope
  | rename_organization organization_id _ actor_id
  | delete_organization organization_id actor_id
  | add_member organization_id _ _ actor_id
  | set_member_role organization_id _ _ actor_id
  | remove_member organization_id _ actor_id
  | create_form organization_id _ actor_id
  | update_form organization_id _ _ actor_id
  | publish_form organization_id _ actor_id
  | close_form organization_id _ actor_id
  | rotate_public_id organization_id _ actor_id
  | delete_form organization_id _ actor_id
  | set_submission_status organization_id _ _ actor_id
  | delete_submission organization_id _ actor_id
  | export_submissions organization_id _ actor_id _ _
  | create_endpoint organization_id _ actor_id
  | update_endpoint organization_id _ _ actor_id
  | delete_endpoint organization_id _ actor_id
  | rotate_secret organization_id _ actor_id
  | redeliver organization_id _ actor_id => some ⟨organization_id, actor_id⟩
  | _ => none

/-- Whether a write is a new session. -/
def Write.opens : Write → Bool
  | session _ => true
  | _ => false

/-- The statements about accounts, their sessions and tokens. -/
def Stmt.onAccounts : Stmt → Prop
  | users _ | roles _ | one_time_tokens _ | sessions _ | begin_tx | rollback | now
  | generate => True
  | commit writes => cond (writes.any Write.ofSubmission) False True
  | _ => False

/-- The same statements, where a commit opens no session. -/
def Stmt.onAccountRows : Stmt → Prop
  | commit writes => cond (writes.any fun w => w.opens || w.ofSubmission) False True
  | q => q.onAccounts

/-- The requests about accounts, their sessions and tokens. -/
def Request.onAccounts : Request → Prop
  | login _ _ _ | refresh _ | authenticate _ | logout _ | logout_all _ | change_password _ _ _
  | reset_password _ _ | request_password_reset _ | resend_verification _ | verify_email _
  | administer _ _ | as_admin _ _ | unlock_account _ | revoke_account_sessions _
  | grant_role_by_email _ _ | open_session _ _ | revoke_others _ _ => True
  | _ => False

/-- Those of them that open a session. -/
def Request.opensSession : Request → Prop
  | login _ _ _ | open_session _ _ => True
  | _ => False

/-- The statements about the members of one organization. -/
def Stmt.onMembership (organization_id : Uuid) : Stmt → Prop
  | organizations (.lock id) | organizations (.role_of id _) | organizations (.member_of id _)
  | organizations (.upsert_member id _ _ _) | organizations (.remove_member id _)
  | organizations (.owner_count id) => id = organization_id
  | users (.find_by_email _) | begin_tx | rollback => True
  | commit writes => ∀ w ∈ writes, w.belongs_to = some organization_id
  | _ => False

theorem Stmt.onAccounts_of_onSessionRows {q : Stmt} (h : q.onSessionRows) : q.onAccounts := by
  cases q with
  | organizations _ | forms _ | submissions _ | uploads _ | webhooks _ | outbox _ | generate_key
  | check_key _ | begin_upload _ | write_part _ _ | flush_parts _ | put_object _ | abort_upload _
  | delete_object _ | enqueue _ | queue_reply _ | post _ _ => exact h.elim
  | commit _ => exact h
  | _ => trivial

theorem Stmt.onAccountRows.onAccounts {q : Stmt} (h : q.onAccountRows) : q.onAccounts := by
  cases q with
  | commit writes =>
    cases hany : writes.any Write.ofSubmission with
    | false =>
      rw [Stmt.onAccounts, hany]
      trivial
    | true =>
      obtain ⟨w, hw, hsubmission⟩ := List.any_eq_true.mp hany
      have hboth : (writes.any fun w => w.opens || w.ofSubmission) = true :=
        List.any_eq_true.mpr ⟨w, hw, by rw [hsubmission, Bool.or_true]⟩
      rw [Stmt.onAccountRows, hboth] at h
      exact h.elim
  | _ => exact h

variable {d : Deployment} {ε α : Type}

theorem rows_onAccounts {x : Code ε α} (h : x.Issues Stmt.onAccountRows) :
    x.Issues Stmt.onAccounts :=
  h.mono fun _ => Stmt.onAccountRows.onAccounts

theorem sessions_onAccounts {x : Code ε α} (h : x.Issues Stmt.onSessionRows) :
    x.Issues Stmt.onAccounts :=
  h.mono fun _ => Stmt.onAccounts_of_onSessionRows

/-! ### Accounts -/

namespace IdentityService

theorem load_onAccountRows (id : Uuid) : (load id).Issues Stmt.onAccountRows := by
  refine (issues_query trivial).bind fun found => ?_
  cases found <;> trivial

theorem public_user_onAccountRows (user : UserRecord) :
    (public_user user).Issues Stmt.onAccountRows :=
  (issues_query trivial).bind fun _ => issues_ret

theorem account_onAccountRows (id : Uuid) : (account id).Issues Stmt.onAccountRows :=
  (load_onAccountRows id).bind fun user => public_user_onAccountRows user

theorem hash_onAccountRows (password : String) : (hash d password).Issues Stmt.onAccountRows :=
  (issues_query trivial).bind fun _ => issues_ret

theorem revoke_sessions_onAccountRows (user_id : Uuid) (keep : Option Uuid) :
    (revoke_sessions user_id keep).Issues Stmt.onAccountRows :=
  (issues_query trivial).bind fun _ => issues_query trivial

theorem accept_onAccountRows (user : UserRecord) (password : String) :
    (accept d user password).Issues Stmt.onAccountRows := by
  refine (Issues.when fun _ => ?_).bind fun _ => (issues_query trivial).bind fun _ => issues_ret
  refine (hash_onAccountRows password).result.bind fun hashed => ?_
  cases hashed with
  | error e => exact issues_ret
  | ok password_hash => exact (issues_attempt trivial).bind fun _ => issues_ret

theorem count_failure_onAccountRows (user : UserRecord) (now : Timestamp) :
    (count_failure d user now).Issues Stmt.onAccountRows := by
  refine (Issues.when fun _ => issues_query trivial).bind fun _ =>
    (issues_query trivial).bind fun _ => expires_at_issues.bind fun _ =>
    (issues_query trivial).bind fun locked => ?_
  split <;> exact issues_throw

theorem verify_credentials_onAccountRows (email password : String) :
    (verify_credentials d email password).Issues Stmt.onAccountRows := by
  refine (issues_query trivial).bind fun found => ?_
  cases found with
  | none => exact issues_throw
  | some user =>
    refine (issues_query trivial).bind fun now => ?_
    (repeat' split) <;> first
      | exact issues_throw
      | exact count_failure_onAccountRows user now
      | exact accept_onAccountRows user password

theorem change_password_onAccountRows (user : UserRecord) (current_password new_password : String)
    (current_session : Uuid) :
    (change_password d user current_password new_password current_session).Issues
      Stmt.onAccountRows := by
  unfold change_password
  split
  · exact issues_throw
  · exact (hash_onAccountRows new_password).bind fun _ => (issues_query trivial).bind fun _ =>
      (revoke_sessions_onAccountRows _ _).bind fun _ => issues_ret

theorem reset_password_onAccountRows (token : SecretToken) (new_password : String) :
    (reset_password d token new_password).Issues Stmt.onAccountRows := by
  refine (issues_query trivial).bind fun found => ?_
  cases found with
  | none => exact issues_throw
  | some user_id =>
    exact (hash_onAccountRows new_password).bind fun _ => (issues_query trivial).bind fun _ =>
      (revoke_sessions_onAccountRows _ _).bind fun _ =>
        (issues_query trivial).bind fun _ => issues_ret

theorem issue_one_time_token_onAccountRows (user_id : Uuid) (purpose : OneTimeTokenPurpose)
    (ttl_seconds : ℕ) :
    (issue_one_time_token user_id purpose ttl_seconds).Issues Stmt.onAccountRows := by
  refine (issues_query trivial).bind fun _ => (issues_query trivial).bind fun _ =>
    expires_at_issues.bind fun _ => transaction_issues trivial (fun _ => ?_) trivial
  refine Issues.bind ?_ fun _ =>
    (issues_query trivial).bind fun _ => (issues_query trivial).bind fun _ => issues_ret
  exact (issues_query trivial).bind fun _ => issues_query trivial

theorem request_password_reset_onAccountRows (email : String) :
    (request_password_reset d email).Issues Stmt.onAccountRows := by
  refine (issues_query trivial).bind fun found => ?_
  cases found with
  | none => exact issues_ret
  | some user =>
    dsimp only
    split
    · exact issues_ret
    · exact (issue_one_time_token_onAccountRows _ _ _).bind fun _ => issues_ret

theorem resend_verification_onAccountRows (email : String) :
    (resend_verification d email).Issues Stmt.onAccountRows := by
  refine (issues_query trivial).bind fun found => ?_
  cases found with
  | none => exact issues_ret
  | some user =>
    dsimp only
    split
    · exact issues_ret
    · exact (issue_one_time_token_onAccountRows _ _ _).bind fun _ => issues_ret

theorem verify_email_onAccountRows (token : SecretToken) :
    (verify_email token).Issues Stmt.onAccountRows := by
  refine (issues_query trivial).bind fun found => ?_
  cases found with
  | none => exact issues_throw
  | some user_id =>
    exact (issues_query trivial).bind fun _ => (issues_query trivial).bind fun _ => issues_ret

theorem replace_for_user_onAccountRows (user_id : Uuid) (roles : List RoleName) :
    (replace_for_user user_id roles).Issues Stmt.onAccountRows :=
  (issues_query trivial).bind fun _ => (issues_query trivial).bind fun _ => issues_query trivial

theorem reject_unknown_roles_onAccountRows (roles : List RoleName) :
    (reject_unknown_roles roles).Issues Stmt.onAccountRows := by
  refine (issues_query trivial).bind fun known => ?_
  split <;> trivial

theorem set_account_status_onAccountRows (target_id : Uuid) (status : UserStatus)
    (actor_id : Uuid) :
    (set_account_status target_id status actor_id).Issues Stmt.onAccountRows := by
  unfold set_account_status
  split
  · exact issues_throw
  · refine (issues_query trivial).bind fun found => ?_
    split
    · exact issues_throw
    · refine (Issues.when fun _ => ?_).bind fun _ => (load_onAccountRows target_id).bind fun _ =>
        account_onAccountRows target_id
      exact (revoke_sessions_onAccountRows _ _).bind fun _ => issues_ret

theorem set_account_roles_onAccountRows (target_id : Uuid) (roles : List RoleName) :
    (set_account_roles target_id roles).Issues Stmt.onAccountRows := by
  refine (reject_unknown_roles_onAccountRows roles).bind fun _ =>
    (issues_query trivial).bind fun before =>
    (Issues.when fun _ => ?_).bind fun _ => (load_onAccountRows target_id).bind fun _ =>
    (replace_for_user_onAccountRows target_id roles).bind fun _ => account_onAccountRows target_id
  refine (issues_query trivial).bind fun admins => ?_
  split <;> trivial

theorem delete_user_onAccountRows (id : Uuid) : (delete_user id).Issues Stmt.onAccountRows := by
  refine (issues_attempt trivial).bind fun checked => ?_
  split
  · exact issues_throw
  · exact issues_ret
  · refine (issues_attempt trivial).bind fun deleted => ?_
    cases deleted <;> trivial

theorem delete_account_onAccountRows (target_id : Uuid) (confirm_email : String) (actor_id : Uuid) :
    (delete_account d target_id confirm_email actor_id).Issues Stmt.onAccountRows := by
  unfold delete_account
  generalize normalize_email d.platform confirm_email = confirmed
  split
  · exact issues_throw
  · refine (load_onAccountRows target_id).bind fun user => ?_
    split
    · exact issues_throw
    · refine (delete_user_onAccountRows target_id).bind fun found => ?_
      split <;> trivial

theorem grant_role_by_email_onAccountRows (email : String) (role : RoleName) :
    (grant_role_by_email d email role).Issues Stmt.onAccountRows := by
  refine (reject_unknown_roles_onAccountRows [role]).bind fun _ =>
    (issues_query trivial).bind fun found => ?_
  cases found with
  | none => exact issues_throw
  | some user =>
    exact (issues_query trivial).bind fun _ => (replace_for_user_onAccountRows _ _).bind fun _ =>
      issues_ret

end IdentityService

namespace AuthService

theorem session_user_onAccountRows (user_id : Uuid) :
    (session_user user_id).Issues Stmt.onAccountRows := by
  refine (issues_query trivial).mapError.bind fun found => ?_
  cases found with
  | none => exact issues_throw
  | some user =>
    dsimp only
    split
    · exact issues_throw
    · exact (IdentityService.public_user_onAccountRows user).mapError

theorem authenticate_onAccountRows (claims : AccessClaims) :
    (authenticate d claims).Issues Stmt.onAccountRows := by
  refine (issues_query trivial).bind fun now => ?_
  split
  · exact issues_throw
  · refine (issues_query trivial).bind fun active => ?_
    split
    · exact issues_throw
    · exact (session_user_onAccountRows claims.sub).bind fun _ => issues_ret

theorem logout_all_onAccountRows (user_id : Uuid) :
    (logout_all user_id).Issues Stmt.onAccountRows :=
  (issues_query trivial).bind fun _ => (issues_query trivial).bind fun _ => issues_ret

theorem refresh_tx_onAccountRows (presented_hash new_hash : TokenHash)
    (new_expires_at : Timestamp) :
    (SessionRepository.refresh presented_hash new_hash new_expires_at).Issues
      Stmt.onAccountRows := by
  refine transaction_issues trivial (fun now => (issues_query trivial).bind fun found => ?_) trivial
  cases found with
  | none => exact issues_ret
  | some lookup =>
    dsimp only
    split
    · exact issues_ret
    · refine (issues_query trivial).bind fun _ => ?_
      split
      · exact issues_ret
      · exact (issues_query trivial).bind fun _ => (issues_query trivial).bind fun _ =>
          (issues_query trivial).bind fun _ => (issues_query trivial).bind fun _ => issues_ret

theorem refresh_onAccountRows (refresh_token : SecretToken) :
    (refresh d refresh_token).Issues Stmt.onAccountRows := by
  refine (issues_query trivial).bind fun _ => (issues_query trivial).bind fun _ =>
    expires_at_issues.bind fun _ => (refresh_tx_onAccountRows _ _ _).bind fun outcome => ?_
  cases outcome with
  | rotated user_id session_id =>
    exact (session_user_onAccountRows user_id).bind fun _ =>
      ((issues_query trivial).bind fun _ => issues_ret).bind fun _ => issues_ret
  | reused user_id session_id => exact (issues_query trivial).bind fun _ => issues_throw
  | invalid => exact issues_throw

end AuthService

theorem AdminOp.onAccountRows (op : AdminOp) (actor_id : Uuid) :
    (op.code d actor_id).Issues Stmt.onAccountRows := by
  cases op with
  | set_status target_id status =>
    exact (IdentityService.set_account_status_onAccountRows _ _ _).bind fun _ => issues_ret
  | set_roles target_id roles =>
    exact (IdentityService.set_account_roles_onAccountRows _ _).bind fun _ => issues_ret
  | delete target_id confirm_email => exact IdentityService.delete_account_onAccountRows _ _ _

theorem as_admin_onAccountRows (claims : AccessClaims) (op : AdminOp) :
    (as_admin d claims op).Issues Stmt.onAccountRows := by
  refine (AuthService.authenticate_onAccountRows claims).mapError.bind fun user => ?_
  refine Issues.bind ?_ fun _ => (AdminOp.onAccountRows op _).mapError
  unfold require_role
  split <;> trivial

theorem change_password_onAccountRows (claims : AccessClaims)
    (current_password new_password : String) :
    (change_password d claims current_password new_password).Issues Stmt.onAccountRows := by
  refine (AuthService.authenticate_onAccountRows claims).mapError.bind fun user =>
    (issues_query trivial).mapError.bind fun found => ?_
  cases found with
  | none => exact issues_throw
  | some record => exact (IdentityService.change_password_onAccountRows _ _ _ _).mapError

theorem login_onAccounts (email password : String) (client : ClientInfo) :
    (AuthService.login d email password client).Issues Stmt.onAccounts :=
  (rows_onAccounts (IdentityService.verify_credentials_onAccountRows email password)).mapError.bind
    fun user => (sessions_onAccounts (AuthService.start_session_issues _ _)).bind fun _ =>
    (sessions_onAccounts (IdentityService.public_user_issues user)).mapError.bind fun _ =>
      issues_ret

/-- Most of the requests about accounts open no session. -/
theorem Request.issues_onAccountRows {r : Request} (hr : r.onAccounts) (hopens : ¬ r.opensSession) :
    (r.code d).Issues Stmt.onAccountRows := by
  cases r with
  | refresh token => exact AuthService.refresh_onAccountRows token
  | authenticate claims => exact AuthService.authenticate_onAccountRows claims
  | logout session_id => exact issues_query trivial
  | logout_all user_id => exact AuthService.logout_all_onAccountRows user_id
  | change_password claims current new => exact change_password_onAccountRows claims current new
  | reset_password token new => exact IdentityService.reset_password_onAccountRows token new
  | request_password_reset email =>
    exact IdentityService.request_password_reset_onAccountRows email
  | resend_verification email => exact IdentityService.resend_verification_onAccountRows email
  | verify_email token => exact IdentityService.verify_email_onAccountRows token
  | administer op actor_id => exact AdminOp.onAccountRows op actor_id
  | as_admin claims op => exact as_admin_onAccountRows claims op
  | unlock_account target_id =>
    refine Issues.bind ?_ fun _ => issues_ret
    exact (IdentityService.load_onAccountRows target_id).bind fun _ => (issues_query trivial).bind
      fun _ => IdentityService.account_onAccountRows target_id
  | revoke_account_sessions target_id =>
    exact (IdentityService.load_onAccountRows target_id).bind fun _ =>
      IdentityService.revoke_sessions_onAccountRows target_id none
  | grant_role_by_email email role =>
    exact IdentityService.grant_role_by_email_onAccountRows email role
  | revoke_others user_id keep =>
    exact (IdentityService.revoke_sessions_onAccountRows user_id (some keep)).bind fun _ =>
      issues_ret
  | login _ _ _ | open_session _ _ => exact absurd trivial hopens
  | _ => exact hr.elim

/-- **The requests about accounts keep to accounts.** -/
theorem Request.issues_onAccounts {r : Request} (hr : r.onAccounts) :
    (r.code d).Issues Stmt.onAccounts := by
  by_cases hopens : r.opensSession
  · cases r with
    | login email password client => exact login_onAccounts email password client
    | open_session user_id client =>
      exact (sessions_onAccounts (AuthService.start_session_issues user_id client)).bind fun _ =>
        issues_ret
    | _ => exact hopens.elim
  · exact rows_onAccounts (Request.issues_onAccountRows hr hopens)

/-! ### Members of an organization -/

/-- A membership that is written is one of the organization it is written for. -/
def UpsertsOwn : (q : Stmt) → Except Failure q.Reply → Prop
  | .organizations (.upsert_member organization_id _ _ _), .ok row =>
    row.organization_id = organization_id
  | _, _ => True

theorem upsertsOwn_of_run {P : Platform} {p : ℕ} {c : Choice} {db db' : Database} {q : Stmt}
    {x : Except Failure q.Reply} (h : q.run P p c db = some (db', x)) : UpsertsOwn q x := by
  unfold UpsertsOwn
  split
  · next organization_id user_id role now row =>
    simp only [Stmt.run, OrganizationStmt.run] at h
    (repeat' split at h) <;> cases h
    · next m hfind _ => exact congrArg Prod.fst (Table.find?_eq_some.mp hfind).2
    · rfl
  · trivial

theorem upsertsOwn_of_effect {P : Platform} {G : Regime} {p : ℕ} {r : Request} {q : Stmt}
    {s s' : State} {x : Except Failure q.Reply} (h : G.Effect (store P) p r q s x s') :
    UpsertsOwn q x := by
  cases h with
  | fail _ =>
    unfold UpsertsOwn
    split
    · next heq => cases heq
    · trivial
  | run _ hrun => exact upsertsOwn_of_run hrun

/-- The footprint of a membership change. -/
abbrev MembershipOf (organization_id : Uuid) (x : Code OrganizationError α) : Prop :=
  x.Does (Stmt.onMembership organization_id) UpsertsOwn fun _ => True

namespace OrganizationService

variable {organization_id : Uuid}

theorem member_does (user_id : Uuid) :
    MembershipOf organization_id (member organization_id user_id) := by
  refine does_bind.mpr (does_query.mpr ⟨rfl, fun found _ => ?_, fun _ _ => trivial⟩)
  cases found <;> trivial

theorem lock_does : MembershipOf organization_id (lock organization_id) := by
  refine does_bind.mpr (does_query.mpr ⟨rfl, fun found _ => ?_, fun _ _ => trivial⟩)
  cases found <;> trivial

theorem locked_role_does (user_id : Uuid) :
    MembershipOf organization_id (locked_role organization_id user_id) := by
  refine does_bind.mpr (does_query.mpr ⟨rfl, fun found _ => ?_, fun _ _ => trivial⟩)
  cases found <;> trivial

theorem ensure_another_owner_does :
    MembershipOf organization_id (ensure_another_owner organization_id) := by
  refine does_bind.mpr (does_query.mpr ⟨rfl, fun owners _ => ?_, fun _ _ => trivial⟩)
  dsimp only
  split <;> trivial

theorem require_manager_does (role : OrganizationRole) :
    MembershipOf organization_id (require_manager role) :=
  (require_manager_issues role).does

theorem require_reaches_does (role other : OrganizationRole) :
    MembershipOf organization_id (require_reaches role other) := by
  unfold require_reaches
  split <;> trivial

theorem seq_does {β : Type} {x : Code OrganizationError β} {f : β → Code OrganizationError α}
    (hx : MembershipOf organization_id x) (hf : ∀ b, MembershipOf organization_id (f b)) :
    MembershipOf organization_id (x >>= f) :=
  hx.bind (fun b _ => hf b) fun _ _ => trivial

theorem tx_does {body : Timestamp → Code OrganizationError α}
    (hbody : ∀ now, MembershipOf organization_id (body now)) :
    MembershipOf organization_id (transaction body) := by
  refine does_ensuring.mpr
    (Does.mono (Ψ := fun _ => True) ?_ fun _ _ => ⟨trivial, fun _ _ => trivial⟩)
  exact does_bind.mpr (does_query.mpr ⟨trivial, fun now _ => hbody now, fun _ _ => trivial⟩)

theorem commit_nothing_does :
    MembershipOf organization_id (ask (.commit []) : Code OrganizationError Unit) :=
  does_query.mpr ⟨fun _ hw => absurd hw List.not_mem_nil, fun _ _ => trivial, fun _ _ => trivial⟩

theorem write_role_does (user_id : Uuid) (current : Option OrganizationRole)
    (role : OrganizationRole) (now : Timestamp) :
    MembershipOf organization_id (write_role organization_id user_id current role now) := by
  refine seq_does (does_when.mpr ⟨fun _ => ensure_another_owner_does, fun _ => trivial⟩) fun _ => ?_
  refine does_bind.mpr (does_query.mpr ⟨rfl, fun row hrow => ?_, fun _ _ => trivial⟩)
  refine does_query.mpr ⟨fun w hw => ?_, fun _ _ => trivial, fun _ _ => trivial⟩
  obtain rfl := List.mem_singleton.mp hw
  exact congrArg some hrow

/-- **Adding a member** keeps to the members of the organization. -/
theorem add_member_does (email : String) (role : OrganizationRole) (actor_id : Uuid) :
    MembershipOf organization_id (add_member d organization_id email role actor_id) := by
  refine seq_does ?_ fun found => ?_
  · refine does_mapError.mpr (does_bind.mpr (does_query.mpr ⟨trivial, fun _ _ => trivial, ?_⟩))
    exact fun _ _ => trivial
  cases found with
  | none => exact does_throw.mpr trivial
  | some user_id =>
    refine seq_does (tx_does fun now => ?_) fun _ =>
      seq_does (member_does user_id) fun _ => does_ret.mpr trivial
    refine seq_does lock_does fun _ => seq_does (locked_role_does actor_id) fun actor_role =>
      seq_does (require_manager_does actor_role) fun _ =>
      seq_does (require_reaches_does actor_role role) fun _ => ?_
    refine does_bind.mpr (does_query.mpr ⟨rfl, fun existing _ => ?_, fun _ _ => trivial⟩)
    cases existing with
    | none => exact seq_does (write_role_does _ _ _ _) fun _ => does_ret.mpr trivial
    | some current =>
      refine seq_does (require_reaches_does actor_role current) fun _ => ?_
      split
      · exact seq_does commit_nothing_does fun _ => does_ret.mpr trivial
      · exact seq_does (write_role_does _ _ _ _) fun _ => does_ret.mpr trivial

/-- **Changing a role** does. -/
theorem set_member_role_does (target_id : Uuid) (role : OrganizationRole) (actor_id : Uuid) :
    MembershipOf organization_id (set_member_role organization_id target_id role actor_id) := by
  refine seq_does (tx_does fun now => ?_) fun _ => member_does target_id
  refine seq_does lock_does fun _ => seq_does (locked_role_does actor_id) fun actor_role =>
    seq_does (require_manager_does actor_role) fun _ => ?_
  refine does_bind.mpr (does_query.mpr ⟨rfl, fun found _ => ?_, fun _ _ => trivial⟩)
  cases found with
  | none => exact does_throw.mpr trivial
  | some current =>
    refine seq_does (require_reaches_does actor_role current) fun _ =>
      seq_does (require_reaches_does actor_role role) fun _ => ?_
    split
    · exact commit_nothing_does
    · exact write_role_does _ _ _ _

/-- **Removing a member** does. -/
theorem remove_member_does (target_id actor_id : Uuid) :
    MembershipOf organization_id (remove_member organization_id target_id actor_id) := by
  refine tx_does fun now => seq_does lock_does fun _ =>
    seq_does (locked_role_does actor_id) fun actor_role => ?_
  refine does_bind.mpr (does_query.mpr ⟨rfl, fun found _ => ?_, fun _ _ => trivial⟩)
  cases found with
  | none => exact does_throw.mpr trivial
  | some current =>
    refine seq_does (does_when.mpr ⟨fun _ => ?_, fun _ => trivial⟩) fun _ => ?_
    · exact seq_does (require_manager_does actor_role) fun _ =>
        require_reaches_does actor_role current
    refine seq_does (does_when.mpr ⟨fun _ => ensure_another_owner_does, fun _ => trivial⟩)
      fun _ => seq_does (member_does target_id) fun _ => ?_
    refine does_bind.mpr (does_query.mpr ⟨rfl, fun _ _ => ?_, fun _ _ => trivial⟩)
    refine does_query.mpr ⟨fun w hw => ?_, fun _ _ => trivial, fun _ _ => trivial⟩
    obtain rfl := List.mem_singleton.mp hw
    rfl

/-! ### The organization itself -/

theorem create_issues {P : Stmt → Prop} (name : String) (actor_id : Uuid) (hbegin : P .begin_tx)
    (hinsert : ∀ now, P (.organizations (.insert_organization (trim name) now)))
    (howner : ∀ id now, P (.organizations (.insert_owner id actor_id now)))
    (hcommit : ∀ row owner, P (.commit [.organization row, .organization_member owner]))
    (hrollback : P .rollback) : (create name actor_id).Issues P :=
  transaction_issues hbegin (fun now =>
    (issues_query (hinsert now)).bind fun _ => (issues_query (howner _ now)).bind fun _ =>
    (issues_query (hcommit _ _)).bind fun _ => issues_ret) hrollback

theorem rename_issues {P : Stmt → Prop} {name : String} {actor_id : Uuid}
    (haccess : P (.organizations (.access organization_id actor_id)))
    (hrename : P (.organizations (.rename organization_id (trim name)))) :
    (rename organization_id name actor_id).Issues P :=
  (access_issues haccess).bind fun _ => (require_manager_issues _).bind fun _ =>
    (issues_query hrename).bind fun _ => access_issues haccess

theorem delete_issues {P : Stmt → Prop} {actor_id : Uuid}
    (haccess : P (.organizations (.access organization_id actor_id)))
    (hdelete : P (.organizations (.delete organization_id))) :
    (delete organization_id actor_id).Issues P := by
  refine (access_issues haccess).bind fun standing => ?_
  refine Issues.bind ?_ fun _ => (issues_query hdelete).bind fun found => ?_
  · unfold require_owner
    split <;> trivial
  · split <;> trivial

end OrganizationService

/-! ### Forms -/

namespace FormService

variable {P : Stmt → Prop} {organization_id form_id submission_id actor_id : Uuid}

theorem get_issues (haccess : P (.organizations (.access organization_id actor_id)))
    (hfind : P (.forms (.find organization_id form_id))) :
    (get organization_id form_id actor_id).Issues P :=
  (OrganizationService.access_issues haccess).mapError.bind fun _ => load_issues hfind

theorem create_issues {request : CreateFormRequest}
    (haccess : P (.organizations (.access organization_id actor_id))) (hkey : P .generate_key)
    (hcreate : ∀ key, P (.forms (.create organization_id (trim request.name) key request.schema
      request.notify_emails))) : (create d organization_id request actor_id).Issues P := by
  refine (manager_access_issues haccess).bind fun _ => ?_
  generalize check_schema d request.schema false = checked
  exact (require_issues checked).bind fun _ => (issues_query hkey).bind fun key =>
    issues_query (hcreate key)

theorem update_issues {request : UpdateFormRequest}
    (haccess : P (.organizations (.access organization_id actor_id)))
    (hfind : P (.forms (.find organization_id form_id)))
    (hreplace : ∀ name schema changed emails message url honeypot,
      P (.forms (.replace_definition organization_id form_id name schema changed emails message url
        honeypot))) : (update d organization_id form_id request actor_id).Issues P := by
  refine (manager_access_issues haccess).bind fun _ => (load_issues hfind).bind fun current => ?_
  generalize check_update d current (request.over current) = checked
  refine (require_issues checked).bind fun _ =>
    Issues.bind (issues_query (hreplace _ _ _ _ _ _ _)) fun updated => ?_
  split
  · exact issues_throw
  · exact get_issues haccess hfind

theorem delete_issues (haccess : P (.organizations (.access organization_id actor_id)))
    (hfind : P (.forms (.find organization_id form_id)))
    (hdelete : P (.forms (.delete organization_id form_id))) :
    (delete organization_id form_id actor_id).Issues P := by
  refine (manager_access_issues haccess).bind fun _ => (load_issues hfind).bind fun _ =>
    (issues_query hdelete).bind fun found => ?_
  split <;> trivial

theorem publish_issues (haccess : P (.organizations (.access organization_id actor_id)))
    (hfind : P (.forms (.find organization_id form_id)))
    (hset : P (.forms (.set_status organization_id form_id .published))) :
    (publish d organization_id form_id actor_id).Issues P := by
  refine (manager_access_issues haccess).bind fun _ => (load_issues hfind).bind fun form => ?_
  generalize check_schema d form.schema true = checked
  exact (require_issues checked).bind fun _ => (issues_query hset).bind fun _ =>
    get_issues haccess hfind

theorem close_issues (haccess : P (.organizations (.access organization_id actor_id)))
    (hfind : P (.forms (.find organization_id form_id)))
    (hset : P (.forms (.set_status organization_id form_id .closed))) :
    (close organization_id form_id actor_id).Issues P := by
  refine (manager_access_issues haccess).bind fun _ => (load_issues hfind).bind fun form => ?_
  split
  · exact issues_throw
  · exact (issues_query hset).bind fun _ => get_issues haccess hfind

theorem rotate_public_id_issues (haccess : P (.organizations (.access organization_id actor_id)))
    (hfind : P (.forms (.find organization_id form_id))) (hkey : P .generate_key)
    (hset : ∀ key, P (.forms (.set_public_id organization_id form_id key))) :
    (rotate_public_id organization_id form_id actor_id).Issues P :=
  (manager_access_issues haccess).bind fun _ => (load_issues hfind).bind fun _ =>
    (issues_query hkey).bind fun key => (issues_query (hset key)).bind fun _ =>
    get_issues haccess hfind

theorem set_submission_status_issues {status : SubmissionStatus}
    (haccess : P (.organizations (.access organization_id actor_id)))
    (hfind : P (.submissions (.find organization_id submission_id)))
    (hset : P (.submissions (.set_status organization_id submission_id status))) :
    (set_submission_status organization_id submission_id status actor_id).Issues P := by
  refine (manager_access_issues haccess).bind fun _ => (issues_query hfind).bind fun found => ?_
  cases found with
  | none => exact issues_throw
  | some _ =>
    refine (issues_query hset).bind fun written => ?_
    split
    · exact issues_throw
    · refine (OrganizationService.access_issues haccess).mapError.bind fun _ =>
        (issues_query hfind).bind fun row => ?_
      cases row <;> trivial

theorem delete_submission_issues (haccess : P (.organizations (.access organization_id actor_id)))
    (hdelete : P (.submissions (.delete organization_id submission_id))) :
    (delete_submission organization_id submission_id actor_id).Issues P := by
  refine (manager_access_issues haccess).bind fun _ => (issues_query hdelete).bind fun found => ?_
  split <;> trivial

theorem reap_abandoned_uploads_issues (hnow : P .now)
    (habandoned : ∀ older_than limit, P (.uploads (.abandoned older_than limit)))
    (hdelete : ∀ key, P (.delete_object key)) (hforget : ∀ id, P (.uploads (.forget id))) :
    (reap_abandoned_uploads d).Issues P := by
  unfold reap_abandoned_uploads
  split
  · exact issues_ret
  · refine (issues_query hnow).bind fun _ => (issues_query (habandoned _ _)).bind fun abandoned =>
      Issues.forEach (fun upload => ?_) _
    refine (issues_attempt (hdelete _)).bind fun deleted => ?_
    cases deleted with
    | error e => exact issues_ret
    | ok _ => exact issues_query (hforget _)

end FormService

/-! ### Webhooks -/

namespace WebhookService

variable {P : Stmt → Prop} {organization_id id actor_id : Uuid}

theorem redeliver_issues (haccess : P (.organizations (.access organization_id actor_id)))
    (hrequeue : P (.webhooks (.requeue_delivery organization_id id)))
    (hfind : P (.webhooks (.find_delivery organization_id id))) :
    (redeliver organization_id id actor_id).Issues P := by
  refine (manager_access_issues haccess).bind fun _ => (issues_query hrequeue).bind fun found => ?_
  split
  · exact issues_throw
  · refine (issues_query hfind).bind fun row => ?_
    cases row <;> trivial

theorem create_issues {request : CreateWebhookEndpointRequest}
    (haccess : P (.organizations (.access organization_id actor_id)))
    (hbelongs : ∀ form_id, P (.webhooks (.form_belongs_to organization_id form_id)))
    (htoken : P .generate)
    (hcreate : ∀ secret, P (.webhooks (.create_endpoint organization_id request.form_id
      (trim request.url) secret request.description))) :
    (create d organization_id request actor_id).Issues P := by
  refine (manager_access_issues haccess).bind fun _ => ?_
  generalize check_url request.url d.config.webhook_allow_private_targets = checked
  refine (require_issues checked).bind fun _ => ?_
  exact (if_some_issues fun form_id => ensure_form_issues (hbelongs form_id)).bind fun _ =>
    (issues_query htoken).bind fun _ => (issues_query (hcreate _)).bind fun _ => issues_ret

theorem update_issues {request : UpdateWebhookEndpointRequest}
    (haccess : P (.organizations (.access organization_id actor_id)))
    (hfind : P (.webhooks (.find_endpoint organization_id id)))
    (hbelongs : ∀ form_id, P (.webhooks (.form_belongs_to organization_id form_id)))
    (hupdate : P (.webhooks (.update_endpoint organization_id id request.changes))) :
    (update d organization_id id request actor_id).Issues P := by
  refine (manager_access_issues haccess).bind fun _ => (issues_query hfind).bind fun found => ?_
  cases found with
  | none => exact issues_throw
  | some _ =>
    refine (if_some_issues fun _ => require_issues _).bind fun _ =>
      (if_some_issues fun form_id => ensure_form_issues (hbelongs form_id)).bind fun _ =>
      (issues_query hupdate).bind fun row => ?_
    cases row <;> trivial

theorem delete_issues (haccess : P (.organizations (.access organization_id actor_id)))
    (hdelete : P (.webhooks (.delete_endpoint organization_id id))) :
    (delete organization_id id actor_id).Issues P := by
  refine (manager_access_issues haccess).bind fun _ => (issues_query hdelete).bind fun found => ?_
  split <;> trivial

theorem rotate_secret_issues (haccess : P (.organizations (.access organization_id actor_id)))
    (hfind : P (.webhooks (.find_endpoint organization_id id))) (htoken : P .generate)
    (hset : ∀ secret, P (.webhooks (.set_endpoint_secret organization_id id secret))) :
    (rotate_secret organization_id id actor_id).Issues P := by
  refine (manager_access_issues haccess).bind fun _ => (issues_query hfind).bind fun found => ?_
  cases found with
  | none => exact issues_throw
  | some _ =>
    refine (issues_query htoken).bind fun _ => (issues_query (hset _)).bind fun found => ?_
    split <;> trivial

end WebhookService

end SubmitSnap
