import SubmitSnap.Footprints

/-!
# Workers: what only the background passes do

Deliveries are claimed, sent and settled by the webhook worker, outbox events by the dispatcher, and
nothing a client asks for ever does either. `Stmt.served` is the class of statements the client
requests stay inside. Only `submit` stores submissions, and only a few others put a definition into
force; the rest stay inside `Stmt.ordinary`. Every handler is walked through once, and a proof about
the workers, or about forms, can then let any other requests run beside them.

## Why this is worth a module

A delivery is sent by one worker at a time because a claim takes it, and an event is dispatched
because a worker says so. Both arguments follow one worker through its pass, while a hundred other
requests run beside it. All that has to be known of these is what they never do. `Stmt.served` is
that class: outside of it are the claims, the verdicts on an attempt, the events' own updates, and
whatever leaves the house (`post`, the queue).

The finer classes are for the results about forms. A definition is put into force by a few
statements, a submission is stored by one commit, and `Stmt.ordinary` is everything else.

## Main results

* `Request.ordinary` — most requests leave definitions, submissions and the workers' tables alone.
* `Request.storesNothing` — a submission is stored by `submit` alone.
* `Request.served` — the requests that are no worker's pass issue served statements only.
* `Request.unserved` — the passes issue no others.
-/

namespace SubmitSnap

open Interleave
open Interleave.Script

/-- The statements a client's request may lead to: all but the workers' own. -/
def Stmt.served : Stmt → Prop
  | webhooks (.fan_out_scan _ _) | webhooks (.fan_out_insert _ _ _ _)
  | webhooks (.claim_due_deliveries _ _) | webhooks (.mark_delivered _ _)
  | webhooks (.record_attempt_failure _ _ _ _ _) | outbox _ | enqueue _ | queue_reply _
  | post _ _ => False
  | _ => True

/-- Those of them that store no submission. -/
def Stmt.storesNothing : Stmt → Prop
  | submissions (.insert _ _) => False
  | commit writes => cond (writes.any Write.ofSubmission) False True
  | q => q.served

/-- Those of these that put no definition into force: no form is created, redefined or published. -/
def Stmt.ordinary : Stmt → Prop
  | forms (.create _ _ _ _ _) | forms (.replace_definition _ _ _ _ _ _ _ _ _)
  | forms (.set_status _ _ .published) => False
  | q => q.storesNothing

theorem Stmt.storesNothing.served {q : Stmt} (h : q.storesNothing) : q.served := by
  unfold storesNothing at h
  split at h
  · exact h.elim
  · trivial
  · exact h

theorem Stmt.ordinary.storesNothing {q : Stmt} (h : q.ordinary) : q.storesNothing := by
  unfold ordinary at h
  split at h
  · exact h.elim
  · exact h.elim
  · exact h.elim
  · exact h

theorem Stmt.ordinary_of_onSessionRows {q : Stmt} (h : q.onSessionRows) : q.ordinary := by
  cases q with
  | forms _ | submissions _ | webhooks _ | outbox _ | enqueue _ | queue_reply _
  | post _ _ => exact h.elim
  | commit _ => exact h
  | _ => trivial

/-- The passes of the background workers on deliveries and outbox events. -/
def Request.isPass : Request → Prop
  | deliver_webhooks | dispatch_outbox => True
  | _ => False

/-- The requests that put a definition into force or store a submission. -/
def Request.feedsForms : Request → Prop
  | create_form _ _ _ | update_form _ _ _ _ | publish_form _ _ _ | submit _ _ _ _ => True
  | _ => False

variable {d : Deployment} {ε α : Type}

theorem sessions_ordinary {x : Code ε α} (h : x.Issues Stmt.onSessionRows) :
    x.Issues Stmt.ordinary :=
  h.mono fun _ => Stmt.ordinary_of_onSessionRows

theorem ordinary_storesNothing {x : Code ε α} (h : x.Issues Stmt.ordinary) :
    x.Issues Stmt.storesNothing :=
  h.mono fun _ => Stmt.ordinary.storesNothing

theorem ordinary_served {x : Code ε α} (h : x.Issues Stmt.ordinary) : x.Issues Stmt.served :=
  h.mono fun _ hq => hq.storesNothing.served

/-! ### Accounts -/

namespace IdentityService

theorem load_ordinary (id : Uuid) : (load id).Issues Stmt.ordinary := by
  refine (issues_query trivial).bind fun found => ?_
  cases found <;> trivial

theorem account_ordinary (id : Uuid) : (account id).Issues Stmt.ordinary :=
  (load_ordinary id).bind fun user => sessions_ordinary (public_user_issues user)

theorem hash_ordinary (password : String) : (hash d password).Issues Stmt.ordinary :=
  (issues_query trivial).bind fun _ => issues_ret

theorem revoke_sessions_ordinary (user_id : Uuid) (keep : Option Uuid) :
    (revoke_sessions user_id keep).Issues Stmt.ordinary :=
  sessions_ordinary (revoke_sessions_issues user_id keep)

theorem accept_ordinary (user : UserRecord) (password : String) :
    (accept d user password).Issues Stmt.ordinary := by
  refine (Issues.when fun _ => ?_).bind fun _ => (issues_query trivial).bind fun _ => issues_ret
  refine (hash_ordinary password).result.bind fun hashed => ?_
  cases hashed with
  | error e => exact issues_ret
  | ok password_hash => exact (issues_attempt trivial).bind fun _ => issues_ret

theorem count_failure_ordinary (user : UserRecord) (now : Timestamp) :
    (count_failure d user now).Issues Stmt.ordinary := by
  refine (Issues.when fun _ => issues_query trivial).bind fun _ =>
    (issues_query trivial).bind fun _ => expires_at_issues.bind fun _ =>
    (issues_query trivial).bind fun locked => ?_
  split <;> exact issues_throw

theorem verify_credentials_ordinary (email password : String) :
    (verify_credentials d email password).Issues Stmt.ordinary := by
  refine (issues_query trivial).bind fun found => ?_
  cases found with
  | none => exact issues_throw
  | some user =>
    refine (issues_query trivial).bind fun now => ?_
    (repeat' split) <;> first
      | exact issues_throw
      | exact count_failure_ordinary user now
      | exact accept_ordinary user password

theorem change_password_ordinary (user : UserRecord) (current_password new_password : String)
    (current_session : Uuid) :
    (change_password d user current_password new_password current_session).Issues
      Stmt.ordinary := by
  unfold change_password
  split
  · exact issues_throw
  · exact (hash_ordinary new_password).bind fun _ => (issues_query trivial).bind fun _ =>
      (revoke_sessions_ordinary _ _).bind fun _ => issues_ret

theorem reset_password_ordinary (token : SecretToken) (new_password : String) :
    (reset_password d token new_password).Issues Stmt.ordinary := by
  refine (issues_query trivial).bind fun found => ?_
  cases found with
  | none => exact issues_throw
  | some user_id =>
    exact (hash_ordinary new_password).bind fun _ => (issues_query trivial).bind fun _ =>
      (revoke_sessions_ordinary _ _).bind fun _ => (issues_query trivial).bind fun _ => issues_ret

theorem issue_one_time_token_ordinary (user_id : Uuid) (purpose : OneTimeTokenPurpose)
    (ttl_seconds : ℕ) :
    (issue_one_time_token user_id purpose ttl_seconds).Issues Stmt.ordinary := by
  refine (issues_query trivial).bind fun _ => (issues_query trivial).bind fun _ =>
    expires_at_issues.bind fun _ => transaction_issues trivial (fun _ => ?_) trivial
  refine Issues.bind ?_ fun _ =>
    (issues_query trivial).bind fun _ => (issues_query trivial).bind fun _ => issues_ret
  exact (issues_query trivial).bind fun _ => issues_query trivial

theorem request_password_reset_ordinary (email : String) :
    (request_password_reset d email).Issues Stmt.ordinary := by
  refine (issues_query trivial).bind fun found => ?_
  cases found with
  | none => exact issues_ret
  | some user =>
    dsimp only
    split
    · exact issues_ret
    · exact (issue_one_time_token_ordinary _ _ _).bind fun _ => issues_ret

theorem resend_verification_ordinary (email : String) :
    (resend_verification d email).Issues Stmt.ordinary := by
  refine (issues_query trivial).bind fun found => ?_
  cases found with
  | none => exact issues_ret
  | some user =>
    dsimp only
    split
    · exact issues_ret
    · exact (issue_one_time_token_ordinary _ _ _).bind fun _ => issues_ret

theorem verify_email_ordinary (token : SecretToken) :
    (verify_email token).Issues Stmt.ordinary := by
  refine (issues_query trivial).bind fun found => ?_
  cases found with
  | none => exact issues_throw
  | some user_id =>
    exact (issues_query trivial).bind fun _ => (issues_query trivial).bind fun _ => issues_ret

theorem replace_for_user_ordinary (user_id : Uuid) (roles : List RoleName) :
    (replace_for_user user_id roles).Issues Stmt.ordinary :=
  (issues_query trivial).bind fun _ => (issues_query trivial).bind fun _ => issues_query trivial

theorem reject_unknown_roles_ordinary (roles : List RoleName) :
    (reject_unknown_roles roles).Issues Stmt.ordinary := by
  refine (issues_query trivial).bind fun known => ?_
  split <;> trivial

theorem set_account_status_ordinary (target_id : Uuid) (status : UserStatus) (actor_id : Uuid) :
    (set_account_status target_id status actor_id).Issues Stmt.ordinary := by
  unfold set_account_status
  split
  · exact issues_throw
  · refine (issues_query trivial).bind fun found => ?_
    split
    · exact issues_throw
    · refine (Issues.when fun _ => ?_).bind fun _ => (load_ordinary target_id).bind fun _ =>
        account_ordinary target_id
      exact (revoke_sessions_ordinary _ _).bind fun _ => issues_ret

theorem set_account_roles_ordinary (target_id : Uuid) (roles : List RoleName) :
    (set_account_roles target_id roles).Issues Stmt.ordinary := by
  refine (reject_unknown_roles_ordinary roles).bind fun _ =>
    (issues_query trivial).bind fun before =>
    (Issues.when fun _ => ?_).bind fun _ => (load_ordinary target_id).bind fun _ =>
    (replace_for_user_ordinary target_id roles).bind fun _ => account_ordinary target_id
  refine (issues_query trivial).bind fun admins => ?_
  split <;> trivial

theorem delete_user_ordinary (id : Uuid) : (delete_user id).Issues Stmt.ordinary := by
  refine (issues_attempt trivial).bind fun checked => ?_
  split
  · exact issues_throw
  · exact issues_ret
  · refine (issues_attempt trivial).bind fun deleted => ?_
    cases deleted <;> trivial

theorem delete_account_ordinary (target_id : Uuid) (confirm_email : String) (actor_id : Uuid) :
    (delete_account d target_id confirm_email actor_id).Issues Stmt.ordinary := by
  unfold delete_account
  generalize normalize_email d.platform confirm_email = confirmed
  split
  · exact issues_throw
  · refine (load_ordinary target_id).bind fun user => ?_
    split
    · exact issues_throw
    · refine (delete_user_ordinary target_id).bind fun found => ?_
      split <;> trivial

theorem grant_role_by_email_ordinary (email : String) (role : RoleName) :
    (grant_role_by_email d email role).Issues Stmt.ordinary := by
  refine (reject_unknown_roles_ordinary [role]).bind fun _ =>
    (issues_query trivial).bind fun found => ?_
  cases found with
  | none => exact issues_throw
  | some user =>
    exact (issues_query trivial).bind fun _ => (replace_for_user_ordinary _ _).bind fun _ =>
      issues_ret

theorem unlock_account_ordinary (target_id : Uuid) :
    (unlock_account target_id).Issues Stmt.ordinary :=
  (load_ordinary target_id).bind fun _ => (issues_query trivial).bind fun _ =>
    account_ordinary target_id

end IdentityService

theorem AdminOp.ordinary (op : AdminOp) (actor_id : Uuid) :
    (op.code d actor_id).Issues Stmt.ordinary := by
  cases op with
  | set_status target_id status =>
    exact (IdentityService.set_account_status_ordinary _ _ _).bind fun _ => issues_ret
  | set_roles target_id roles =>
    exact (IdentityService.set_account_roles_ordinary _ _).bind fun _ => issues_ret
  | delete target_id confirm_email => exact IdentityService.delete_account_ordinary _ _ _

theorem as_admin_ordinary (claims : AccessClaims) (op : AdminOp) :
    (as_admin d claims op).Issues Stmt.ordinary := by
  refine (sessions_ordinary (AuthService.authenticate_issues claims)).mapError.bind fun user => ?_
  refine Issues.bind ?_ fun _ => (AdminOp.ordinary op _).mapError
  unfold require_role
  split <;> trivial

theorem change_password_ordinary (claims : AccessClaims) (current_password new_password : String) :
    (change_password d claims current_password new_password).Issues Stmt.ordinary := by
  refine (sessions_ordinary (AuthService.authenticate_issues claims)).mapError.bind fun user =>
    (issues_query trivial).mapError.bind fun found => ?_
  cases found with
  | none => exact issues_throw
  | some record => exact (IdentityService.change_password_ordinary _ _ _ _).mapError

theorem login_ordinary (email password : String) (client : ClientInfo) :
    (AuthService.login d email password client).Issues Stmt.ordinary :=
  (IdentityService.verify_credentials_ordinary email password).mapError.bind fun user =>
    (sessions_ordinary (AuthService.start_session_issues _ _)).bind fun _ =>
    (sessions_ordinary (IdentityService.public_user_issues user)).mapError.bind fun _ => issues_ret

/-! ### Organizations -/

namespace OrganizationService

theorem access_ordinary (organization_id user_id : Uuid) :
    (access organization_id user_id).Issues Stmt.ordinary :=
  access_issues trivial

theorem require_manager_ordinary (role : OrganizationRole) :
    (require_manager role).Issues Stmt.ordinary :=
  require_manager_issues role

theorem require_reaches_ordinary (role other : OrganizationRole) :
    (require_reaches role other).Issues Stmt.ordinary := by
  unfold require_reaches
  split <;> trivial

theorem create_ordinary (name : String) (actor_id : Uuid) :
    (create name actor_id).Issues Stmt.ordinary :=
  transaction_issues trivial (fun _ =>
    (issues_query trivial).bind fun _ => (issues_query trivial).bind fun _ =>
    (issues_query trivial).bind fun _ => issues_ret) trivial

theorem rename_ordinary (organization_id : Uuid) (name : String) (actor_id : Uuid) :
    (rename organization_id name actor_id).Issues Stmt.ordinary :=
  (access_ordinary organization_id actor_id).bind fun _ =>
    (require_manager_ordinary _).bind fun _ =>
    (issues_query trivial).bind fun _ => access_ordinary organization_id actor_id

theorem delete_ordinary (organization_id actor_id : Uuid) :
    (delete organization_id actor_id).Issues Stmt.ordinary := by
  refine (access_ordinary organization_id actor_id).bind fun standing => ?_
  refine Issues.bind ?_ fun _ => (issues_query trivial).bind fun found => ?_
  · unfold require_owner
    split <;> trivial
  · split <;> trivial

theorem member_ordinary (organization_id user_id : Uuid) :
    (member organization_id user_id).Issues Stmt.ordinary := by
  refine (issues_query trivial).bind fun found => ?_
  cases found <;> trivial

theorem lock_ordinary (organization_id : Uuid) : (lock organization_id).Issues Stmt.ordinary := by
  refine (issues_query trivial).bind fun found => ?_
  cases found <;> trivial

theorem locked_role_ordinary (organization_id user_id : Uuid) :
    (locked_role organization_id user_id).Issues Stmt.ordinary := by
  refine (issues_query trivial).bind fun found => ?_
  cases found <;> trivial

theorem ensure_another_owner_ordinary (organization_id : Uuid) :
    (ensure_another_owner organization_id).Issues Stmt.ordinary := by
  refine (issues_query trivial).bind fun owners => ?_
  split <;> trivial

theorem write_role_ordinary (organization_id user_id : Uuid) (current : Option OrganizationRole)
    (role : OrganizationRole) (now : Timestamp) :
    (write_role organization_id user_id current role now).Issues Stmt.ordinary :=
  (Issues.when fun _ => ensure_another_owner_ordinary organization_id).bind fun _ =>
    (issues_query trivial).bind fun _ => issues_query trivial

theorem add_member_ordinary (organization_id : Uuid) (email : String) (role : OrganizationRole)
    (actor_id : Uuid) :
    (add_member d organization_id email role actor_id).Issues Stmt.ordinary := by
  refine ((issues_query trivial).bind fun _ => issues_ret).mapError.bind fun found => ?_
  cases found with
  | none => exact issues_throw
  | some user_id =>
    refine Issues.bind ?_ fun _ => (member_ordinary _ _).bind fun _ => issues_ret
    refine transaction_issues trivial (fun now => ?_) trivial
    refine (lock_ordinary organization_id).bind fun _ =>
      (locked_role_ordinary organization_id actor_id).bind fun actor_role =>
      (require_manager_ordinary actor_role).bind fun _ =>
      (require_reaches_ordinary actor_role role).bind fun _ =>
      (issues_query trivial).bind fun existing => ?_
    cases existing with
    | none => exact (write_role_ordinary _ _ _ _ _).bind fun _ => issues_ret
    | some current =>
      refine (require_reaches_ordinary actor_role current).bind fun _ => ?_
      split
      · exact (issues_query trivial).bind fun _ => issues_ret
      · exact (write_role_ordinary _ _ _ _ _).bind fun _ => issues_ret

theorem set_member_role_ordinary (organization_id target_id : Uuid) (role : OrganizationRole)
    (actor_id : Uuid) :
    (set_member_role organization_id target_id role actor_id).Issues Stmt.ordinary := by
  refine Issues.bind ?_ fun _ => member_ordinary _ _
  refine transaction_issues trivial (fun now => ?_) trivial
  refine (lock_ordinary organization_id).bind fun _ =>
    (locked_role_ordinary organization_id actor_id).bind fun actor_role =>
    (require_manager_ordinary actor_role).bind fun _ => (issues_query trivial).bind fun found => ?_
  cases found with
  | none => exact issues_throw
  | some current =>
    refine (require_reaches_ordinary actor_role current).bind fun _ =>
      (require_reaches_ordinary actor_role role).bind fun _ => ?_
    split
    · exact issues_query trivial
    · exact write_role_ordinary _ _ _ _ _

theorem remove_member_ordinary (organization_id target_id actor_id : Uuid) :
    (remove_member organization_id target_id actor_id).Issues Stmt.ordinary := by
  refine transaction_issues trivial (fun now => ?_) trivial
  refine (lock_ordinary organization_id).bind fun _ =>
    (locked_role_ordinary organization_id actor_id).bind fun actor_role =>
    (issues_query trivial).bind fun found => ?_
  cases found with
  | none => exact issues_throw
  | some current =>
    refine (Issues.when fun _ => (require_manager_ordinary actor_role).bind fun _ =>
      require_reaches_ordinary actor_role current).bind fun _ => ?_
    exact (Issues.when fun _ => ensure_another_owner_ordinary organization_id).bind fun _ =>
      (member_ordinary _ _).bind fun _ => (issues_query trivial).bind fun _ => issues_query trivial

end OrganizationService

/-! ### Forms -/

namespace FormService

theorem manager_access_ordinary (organization_id actor_id : Uuid) :
    (manager_access organization_id actor_id).Issues Stmt.ordinary :=
  manager_access_issues trivial

theorem require_ordinary {α : Type} (x : Except FormError α) :
    (require x).Issues Stmt.ordinary := by
  cases x <;> trivial

theorem load_ordinary (organization_id form_id : Uuid) :
    (load organization_id form_id).Issues Stmt.ordinary :=
  load_issues trivial

theorem get_ordinary (organization_id form_id actor_id : Uuid) :
    (get organization_id form_id actor_id).Issues Stmt.ordinary :=
  (OrganizationService.access_ordinary _ _).mapError.bind fun _ =>
    load_ordinary organization_id form_id

theorem load_published_ordinary (public_id : String) :
    (load_published public_id).Issues Stmt.ordinary :=
  load_published_issues trivial

theorem create_storesNothing (organization_id : Uuid) (request : CreateFormRequest)
    (actor_id : Uuid) :
    (create d organization_id request actor_id).Issues Stmt.storesNothing := by
  refine (ordinary_storesNothing (manager_access_ordinary organization_id actor_id)).bind
    fun _ => ?_
  generalize check_schema d request.schema false = checked
  refine (ordinary_storesNothing (require_ordinary checked)).bind fun _ => ?_
  exact (issues_query trivial).bind fun _ => issues_query trivial

theorem update_storesNothing (organization_id form_id : Uuid) (request : UpdateFormRequest)
    (actor_id : Uuid) :
    (update d organization_id form_id request actor_id).Issues Stmt.storesNothing := by
  refine (ordinary_storesNothing (manager_access_ordinary organization_id actor_id)).bind fun _ =>
    (ordinary_storesNothing (load_ordinary organization_id form_id)).bind fun current => ?_
  generalize check_update d current (request.over current) = checked
  refine (ordinary_storesNothing (require_ordinary checked)).bind fun _ =>
    Issues.bind (issues_query trivial) fun updated => ?_
  split
  · exact issues_throw
  · exact ordinary_storesNothing (get_ordinary organization_id form_id actor_id)

theorem delete_ordinary (organization_id form_id actor_id : Uuid) :
    (delete organization_id form_id actor_id).Issues Stmt.ordinary := by
  refine (manager_access_ordinary organization_id actor_id).bind fun _ =>
    (load_ordinary organization_id form_id).bind fun _ =>
    (issues_query trivial).bind fun found => ?_
  split <;> trivial

theorem publish_storesNothing (organization_id form_id actor_id : Uuid) :
    (publish d organization_id form_id actor_id).Issues Stmt.storesNothing := by
  refine (ordinary_storesNothing (manager_access_ordinary organization_id actor_id)).bind fun _ =>
    (ordinary_storesNothing (load_ordinary organization_id form_id)).bind fun form => ?_
  generalize check_schema d form.schema true = checked
  refine (ordinary_storesNothing (require_ordinary checked)).bind fun _ => ?_
  exact (issues_query trivial).bind fun _ =>
    ordinary_storesNothing (get_ordinary organization_id form_id actor_id)

theorem close_ordinary (organization_id form_id actor_id : Uuid) :
    (close organization_id form_id actor_id).Issues Stmt.ordinary := by
  refine (manager_access_ordinary organization_id actor_id).bind fun _ =>
    (load_ordinary organization_id form_id).bind fun form => ?_
  split
  · exact issues_throw
  · exact (issues_query trivial).bind fun _ => get_ordinary organization_id form_id actor_id

theorem rotate_public_id_ordinary (organization_id form_id actor_id : Uuid) :
    (rotate_public_id organization_id form_id actor_id).Issues Stmt.ordinary :=
  (manager_access_ordinary organization_id actor_id).bind fun _ =>
    (load_ordinary organization_id form_id).bind fun _ => (issues_query trivial).bind fun _ =>
    (issues_query trivial).bind fun _ => get_ordinary organization_id form_id actor_id

theorem insert_submission_served (submission : NewSubmission) :
    (insert_submission submission).Issues Stmt.served :=
  transaction_issues trivial (fun _ =>
    (issues_query trivial).bind fun _ => (issues_query trivial).bind fun _ => issues_ret) trivial

theorem insert_claiming_files_served (submission : NewSubmission)
    (answers : List (String × String)) :
    (insert_claiming_files submission answers).Issues Stmt.served := by
  refine transaction_issues trivial (fun now => ?_) trivial
  refine (issues_query trivial).bind fun _ => (ordinary_served (require_ordinary _)).bind fun _ =>
    (issues_query trivial).bind fun _ => (issues_query trivial).bind fun claimed => ?_
  split
  · exact issues_throw
  · exact (issues_query trivial).bind fun _ => issues_ret

theorem submit_served (public_id : String) (payload : Map) (client : ClientInfo)
    (referer : Option String) :
    (submit d public_id payload client referer).Issues Stmt.served := by
  refine (ordinary_served (load_published_ordinary public_id)).bind fun form =>
    (issues_query trivial).bind fun allowed => ?_
  split
  · exact issues_throw
  · split
    · exact issues_throw
    · dsimp only
      split
      · exact (insert_submission_served _).bind fun _ => issues_ret
      · exact (insert_claiming_files_served _ _).bind fun _ => issues_ret

theorem set_submission_status_ordinary (organization_id submission_id : Uuid)
    (status : SubmissionStatus) (actor_id : Uuid) :
    (set_submission_status organization_id submission_id status actor_id).Issues Stmt.ordinary := by
  refine (manager_access_ordinary organization_id actor_id).bind fun _ =>
    (issues_query trivial).bind fun found => ?_
  cases found with
  | none => exact issues_throw
  | some _ =>
    refine (issues_query trivial).bind fun written => ?_
    split
    · exact issues_throw
    · refine (OrganizationService.access_ordinary _ _).mapError.bind fun _ =>
        (issues_query trivial).bind fun row => ?_
      cases row <;> trivial

theorem delete_submission_ordinary (organization_id submission_id actor_id : Uuid) :
    (delete_submission organization_id submission_id actor_id).Issues Stmt.ordinary := by
  refine (manager_access_ordinary organization_id actor_id).bind fun _ =>
    (issues_query trivial).bind fun found => ?_
  split <;> trivial

theorem export_submissions_ordinary (organization_id form_id actor_id : Uuid)
    (format : ExportFormat) (rounds : ℕ) :
    (export_submissions d organization_id form_id actor_id format rounds).Issues Stmt.ordinary :=
  export_submissions_issues trivial trivial trivial fun _ => trivial

theorem upload_ordinary (public_id field_key : String) (filename declared_type : Option String)
    (body : List Chunk) :
    (upload d public_id field_key filename declared_type body).Issues Stmt.ordinary := by
  unfold upload
  split
  · exact issues_throw
  · refine (load_published_ordinary public_id).bind fun form =>
      (issues_query trivial).bind fun allowed => ?_
    split
    · exact issues_throw
    · refine (require_ordinary _).bind fun target => (issues_query trivial).bind fun object_key =>
        (issues_query trivial).bind fun _ =>
          (stream_upload_issues (fun _ => trivial) _ _ _ _).result.bind fun streamed => ?_
      cases streamed with
      | error e => exact (issues_attempt trivial).bind fun _ => issues_throw
      | ok size =>
        refine (finish_issues trivial trivial trivial).bind fun _ =>
          (issues_attempt trivial).bind fun inserted => ?_
        cases inserted with
        | ok row => exact issues_ret
        | error e => exact (issues_attempt trivial).bind fun _ => issues_throw

theorem reap_abandoned_uploads_ordinary : (reap_abandoned_uploads d).Issues Stmt.ordinary := by
  unfold reap_abandoned_uploads
  split
  · exact issues_ret
  · refine (issues_query trivial).bind fun _ => (issues_query trivial).bind fun abandoned =>
      Issues.forEach (fun upload => ?_) _
    refine (issues_attempt trivial).bind fun deleted => ?_
    cases deleted with
    | error e => exact issues_ret
    | ok _ => exact issues_query trivial

end FormService

/-! ### Webhooks -/

namespace WebhookService

theorem manager_access_ordinary (organization_id actor_id : Uuid) :
    (manager_access organization_id actor_id).Issues Stmt.ordinary :=
  manager_access_issues trivial

theorem redeliver_ordinary (organization_id delivery_id actor_id : Uuid) :
    (redeliver organization_id delivery_id actor_id).Issues Stmt.ordinary := by
  refine (manager_access_ordinary organization_id actor_id).bind fun _ =>
    (issues_query trivial).bind fun found => ?_
  split
  · exact issues_throw
  · refine (issues_query trivial).bind fun row => ?_
    cases row <;> trivial

theorem create_ordinary (organization_id : Uuid) (request : CreateWebhookEndpointRequest)
    (actor_id : Uuid) : (create d organization_id request actor_id).Issues Stmt.ordinary := by
  refine (manager_access_ordinary organization_id actor_id).bind fun _ => ?_
  generalize check_url request.url d.config.webhook_allow_private_targets = checked
  refine (require_issues checked).bind fun _ => ?_
  refine (if_some_issues fun _ => ensure_form_issues trivial).bind fun _ => ?_
  exact (issues_query trivial).bind fun _ => (issues_query trivial).bind fun _ => issues_ret

theorem update_ordinary (organization_id id : Uuid) (request : UpdateWebhookEndpointRequest)
    (actor_id : Uuid) : (update d organization_id id request actor_id).Issues Stmt.ordinary := by
  refine (manager_access_ordinary organization_id actor_id).bind fun _ =>
    (issues_query trivial).bind fun found => ?_
  cases found with
  | none => exact issues_throw
  | some _ =>
    refine (if_some_issues fun _ => require_issues _).bind fun _ =>
      (if_some_issues fun _ => ensure_form_issues trivial).bind fun _ =>
      (issues_query trivial).bind fun row => ?_
    cases row <;> trivial

theorem delete_ordinary (organization_id id actor_id : Uuid) :
    (delete organization_id id actor_id).Issues Stmt.ordinary := by
  refine (manager_access_ordinary organization_id actor_id).bind fun _ =>
    (issues_query trivial).bind fun found => ?_
  split <;> trivial

theorem rotate_secret_ordinary (organization_id id actor_id : Uuid) :
    (rotate_secret organization_id id actor_id).Issues Stmt.ordinary := by
  refine (manager_access_ordinary organization_id actor_id).bind fun _ =>
    (issues_query trivial).bind fun found => ?_
  cases found with
  | none => exact issues_throw
  | some _ =>
    refine (issues_query trivial).bind fun token => (issues_query trivial).bind fun found => ?_
    split <;> trivial

end WebhookService

/-- **What most requests leave alone**: definitions, submissions and the workers' tables. -/
theorem Request.ordinary {r : Request} (hr : ¬ r.isPass) (hforms : ¬ r.feedsForms) :
    (r.code d).Issues Stmt.ordinary := by
  cases r with
  | login email password client => exact login_ordinary email password client
  | refresh token => exact sessions_ordinary (AuthService.refresh_issues token)
  | authenticate claims => exact sessions_ordinary (AuthService.authenticate_issues claims)
  | logout session_id => exact sessions_ordinary (AuthService.logout_issues session_id)
  | logout_all user_id => exact sessions_ordinary (AuthService.logout_all_issues user_id)
  | change_password claims current new => exact change_password_ordinary claims current new
  | reset_password token new => exact IdentityService.reset_password_ordinary token new
  | request_password_reset email => exact IdentityService.request_password_reset_ordinary email
  | resend_verification email => exact IdentityService.resend_verification_ordinary email
  | verify_email token => exact IdentityService.verify_email_ordinary token
  | administer op actor_id => exact AdminOp.ordinary op actor_id
  | as_admin claims op => exact as_admin_ordinary claims op
  | unlock_account target_id =>
    exact (IdentityService.unlock_account_ordinary target_id).bind fun _ => issues_ret
  | revoke_account_sessions target_id =>
    exact (IdentityService.load_ordinary target_id).bind fun _ =>
      IdentityService.revoke_sessions_ordinary target_id none
  | grant_role_by_email email role => exact IdentityService.grant_role_by_email_ordinary email role
  | open_session user_id client =>
    exact (sessions_ordinary (AuthService.start_session_issues user_id client)).bind fun _ =>
      issues_ret
  | revoke_others user_id keep =>
    exact (IdentityService.revoke_sessions_ordinary user_id (some keep)).bind fun _ => issues_ret
  | create_organization name actor_id => exact OrganizationService.create_ordinary name actor_id
  | rename_organization o name actor_id => exact OrganizationService.rename_ordinary o name actor_id
  | delete_organization o actor_id => exact OrganizationService.delete_ordinary o actor_id
  | add_member o email role actor_id =>
    exact OrganizationService.add_member_ordinary o email role actor_id
  | set_member_role o target_id role actor_id =>
    exact OrganizationService.set_member_role_ordinary o target_id role actor_id
  | remove_member o target_id actor_id =>
    exact OrganizationService.remove_member_ordinary o target_id actor_id
  | close_form o form_id actor_id => exact FormService.close_ordinary o form_id actor_id
  | rotate_public_id o form_id actor_id =>
    exact FormService.rotate_public_id_ordinary o form_id actor_id
  | delete_form o form_id actor_id => exact FormService.delete_ordinary o form_id actor_id
  | set_submission_status o submission_id status actor_id =>
    exact FormService.set_submission_status_ordinary o submission_id status actor_id
  | delete_submission o submission_id actor_id =>
    exact FormService.delete_submission_ordinary o submission_id actor_id
  | export_submissions o form_id actor_id format rounds =>
    exact FormService.export_submissions_ordinary o form_id actor_id format rounds
  | upload public_id field_key filename declared_type body =>
    exact FormService.upload_ordinary public_id field_key filename declared_type body
  | reap_abandoned_uploads => exact FormService.reap_abandoned_uploads_ordinary
  | create_endpoint o request actor_id => exact WebhookService.create_ordinary o request actor_id
  | update_endpoint o id request actor_id =>
    exact WebhookService.update_ordinary o id request actor_id
  | delete_endpoint o id actor_id => exact WebhookService.delete_ordinary o id actor_id
  | rotate_secret o id actor_id => exact WebhookService.rotate_secret_ordinary o id actor_id
  | redeliver o delivery_id actor_id =>
    exact WebhookService.redeliver_ordinary o delivery_id actor_id
  | deliver_webhooks | dispatch_outbox => exact absurd trivial hr
  | create_form _ _ _ | update_form _ _ _ _ | publish_form _ _ _ | submit _ _ _ _ =>
    exact absurd trivial hforms

/-- The requests that store submissions. -/
def Request.isSubmit : Request → Prop
  | submit _ _ _ _ => True
  | _ => False

theorem Request.storesNothing {r : Request} (hr : ¬ r.isPass) (hsubmit : ¬ r.isSubmit) :
    (r.code d).Issues Stmt.storesNothing := by
  by_cases hforms : r.feedsForms
  · cases r with
    | create_form o request actor_id => exact FormService.create_storesNothing o request actor_id
    | update_form o form_id request actor_id =>
      exact FormService.update_storesNothing o form_id request actor_id
    | publish_form o form_id actor_id => exact FormService.publish_storesNothing o form_id actor_id
    | submit _ _ _ _ => exact absurd trivial hsubmit
    | _ => exact hforms.elim
  · exact ordinary_storesNothing (Request.ordinary hr hforms)

/-- **What only the workers do**: a request that is no worker's pass keeps to served statements. -/
theorem Request.served {r : Request} (hr : ¬ r.isPass) : (r.code d).Issues Stmt.served := by
  by_cases hsubmit : r.isSubmit
  · cases r with
    | submit public_id payload client referer =>
      exact FormService.submit_served public_id payload client referer
    | _ => exact hsubmit.elim
  · exact (Request.storesNothing hr hsubmit).mono fun _ => Stmt.storesNothing.served

/-- **What the workers do besides**: nothing. -/
theorem Request.unserved {r : Request} (hr : r.isPass) :
    (r.code d).Issues fun q => ¬ q.served := by
  cases r with
  | deliver_webhooks =>
    refine (issues_query id).bind fun deliveries => Issues.forEach (fun delivery => ?_) deliveries
    refine (issues_attempt id).bind fun answer => ?_
    split
    · split <;> exact (issues_attempt id).bind fun _ => issues_ret
    · exact (issues_attempt id).bind fun _ => issues_ret
    · exact (issues_attempt id).bind fun _ => issues_ret
  | dispatch_outbox =>
    refine (issues_query id).bind fun events => Issues.forEach (fun event => ?_) events
    refine Issues.bind (Issues.result ?_) fun outcome => ?_
    · refine (issues_query id).bind fun found => ?_
      cases found with
      | none => exact issues_ret
      | some source =>
        refine Issues.bind ((issues_query id).bind fun _ => issues_query id) fun _ => ?_
        exact Issues.forEach (fun _ => (issues_query id).bind fun _ => issues_query id) _
    · cases outcome <;> exact issues_query id
  | _ => exact hr.elim

end SubmitSnap
