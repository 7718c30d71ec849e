import SubmitSnap.Identity.Administration
import SubmitSnap.Auth.Service
import SubmitSnap.Form.Service
import SubmitSnap.Dispatcher

/-!
# Requests: what a running instance is asked to do

The entry points of the modelled services that change something, and the export, each with the
code it runs. Most are service calls with the caller's identity as an argument, as the HTTP
handlers make them after authenticating; the administrative ones come in two forms, the bare
service call and `as_admin`, which is the handler: it authenticates the caller and requires the
role first. The passes of the background workers are requests like any other, so a run may contain
any number of workers.

## What is a request here and what is not

A run is made of the requests below, any number of each, in any order. Two kinds of handlers are
not among them. Registration makes a new account; here the accounts of a run are those it starts
with, of which nothing is assumed, and `open_session` is the part of a registration that an
existing account sees. Handlers that list or show and change nothing are no requests either: their
statements take no lock and write no row, so nobody could tell whether one has been there. Those
of them that a result is about are modelled where the result is, the inbox as what it answers, the
download as an observer next to a run.

Some service calls are requests on their own, though no handler makes them alone (`open_session`,
`revoke_others`). That only adds runs: what is shown to hold of every run holds of those the
handlers can make.

## Main definitions

* `Request`, `Request.code` — the requests and their code.
* `World`, `Reaches` — the worlds and runs of a deployment.
-/

namespace SubmitSnap

open Interleave
open Interleave.Script (ret when mapError result)

/-- The changes an administrator makes to an account. -/
inductive AdminOp where
  | set_status (target_id : Uuid) (status : UserStatus)
  | set_roles (target_id : Uuid) (roles : List RoleName)
  | delete (target_id : Uuid) (confirm_email : String)
  deriving DecidableEq

/-- Errors of the handlers. -/
inductive AppError where
  | unauthorized
  | forbidden
  | auth (cause : AuthError)
  | identity (cause : IdentityError)
  | internal (cause : Failure)
  deriving DecidableEq

instance : Raises Failure AppError := ⟨.internal⟩

inductive Request where
  | login (email password : String) (client : ClientInfo)
  | refresh (refresh_token : SecretToken)
  | authenticate (claims : AccessClaims)
  | logout (session_id : Uuid)
  | logout_all (user_id : Uuid)
  | change_password (claims : AccessClaims) (current_password new_password : String)
  | reset_password (token : SecretToken) (new_password : String)
  | request_password_reset (email : String)
  | resend_verification (email : String)
  | verify_email (token : SecretToken)
  | administer (op : AdminOp) (actor_id : Uuid)
  | as_admin (claims : AccessClaims) (op : AdminOp)
  | unlock_account (target_id : Uuid)
  | revoke_account_sessions (target_id : Uuid)
  | grant_role_by_email (email : String) (role : RoleName)
  | open_session (user_id : Uuid) (client : ClientInfo)
  | revoke_others (user_id keep : Uuid)
  | create_organization (name : String) (actor_id : Uuid)
  | rename_organization (organization_id : Uuid) (name : String) (actor_id : Uuid)
  | delete_organization (organization_id actor_id : Uuid)
  | add_member (organization_id : Uuid) (email : String) (role : OrganizationRole)
      (actor_id : Uuid)
  | set_member_role (organization_id target_id : Uuid) (role : OrganizationRole) (actor_id : Uuid)
  | remove_member (organization_id target_id actor_id : Uuid)
  | create_form (organization_id : Uuid) (request : CreateFormRequest) (actor_id : Uuid)
  | update_form (organization_id form_id : Uuid) (request : UpdateFormRequest) (actor_id : Uuid)
  | publish_form (organization_id form_id actor_id : Uuid)
  | close_form (organization_id form_id actor_id : Uuid)
  | rotate_public_id (organization_id form_id actor_id : Uuid)
  | delete_form (organization_id form_id actor_id : Uuid)
  | submit (public_id : String) (payload : Map) (client : ClientInfo) (referer : Option String)
  | set_submission_status (organization_id submission_id : Uuid) (status : SubmissionStatus)
      (actor_id : Uuid)
  | delete_submission (organization_id submission_id actor_id : Uuid)
  /-- An export is followed for so many reads of a page, unless it ends before. -/
  | export_submissions (organization_id form_id actor_id : Uuid) (format : ExportFormat)
      (rounds : ℕ)
  | upload (public_id field_key : String) (filename declared_type : Option String)
      (body : List Chunk)
  | reap_abandoned_uploads
  | create_endpoint (organization_id : Uuid) (request : CreateWebhookEndpointRequest)
      (actor_id : Uuid)
  | update_endpoint (organization_id id : Uuid) (request : UpdateWebhookEndpointRequest)
      (actor_id : Uuid)
  | delete_endpoint (organization_id id actor_id : Uuid)
  | rotate_secret (organization_id id actor_id : Uuid)
  | redeliver (organization_id delivery_id actor_id : Uuid)
  | deliver_webhooks
  | dispatch_outbox

namespace Request

/-- What a request answers. -/
abbrev Res : Request → Type
  | login _ _ _ | refresh _ => IssuedSession
  | authenticate _ => AuthenticatedUser
  | request_password_reset _ => Option SecretToken
  | revoke_account_sessions _ => ℕ
  | grant_role_by_email _ _ => Uuid
  | create_organization _ _ => OrganizationRecord
  | rename_organization _ _ _ => Access
  | add_member _ _ _ _ => MemberRecord × Bool
  | set_member_role _ _ _ _ => MemberRecord
  | create_form _ _ _ | update_form _ _ _ _ | publish_form _ _ _ | close_form _ _ _
  | rotate_public_id _ _ _ => FormRecord
  | submit _ _ _ _ => SubmissionAccepted
  | set_submission_status _ _ _ _ => SubmissionRecord
  | export_submissions _ _ _ _ _ => ExportStream
  | upload _ _ _ _ _ => UploadedFile
  | create_endpoint _ _ _ => WebhookEndpointRecord × String
  | update_endpoint _ _ _ _ => WebhookEndpointRecord
  | rotate_secret _ _ _ => String
  | redeliver _ _ _ => WebhookDeliveryRecord
  | _ => Unit

/-- How a request fails. -/
abbrev Err : Request → Type
  | login _ _ _ | refresh _ | authenticate _ | logout _ | logout_all _ | open_session _ _ =>
    AuthError
  | change_password _ _ _ | as_admin _ _ => AppError
  | reset_password _ _ | request_password_reset _ | resend_verification _ | verify_email _
  | administer _ _ | unlock_account _ | revoke_account_sessions _ | grant_role_by_email _ _
  | revoke_others _ _ => IdentityError
  | create_organization _ _ | rename_organization _ _ _ | delete_organization _ _
  | add_member _ _ _ _ | set_member_role _ _ _ _ | remove_member _ _ _ => OrganizationError
  | create_form _ _ _ | update_form _ _ _ _ | publish_form _ _ _ | close_form _ _ _
  | rotate_public_id _ _ _ | delete_form _ _ _ | submit _ _ _ _ | set_submission_status _ _ _ _
  | delete_submission _ _ _ | export_submissions _ _ _ _ _ | upload _ _ _ _ _
  | reap_abandoned_uploads => FormError
  | create_endpoint _ _ _ | update_endpoint _ _ _ _ | delete_endpoint _ _ _
  | rotate_secret _ _ _ | redeliver _ _ _ | deliver_webhooks => WebhookError
  | dispatch_outbox => Failure

end Request

variable (d : Deployment)

/-- The service call behind an administrative change. -/
def AdminOp.code (actor_id : Uuid) : AdminOp → Code IdentityError Unit
  | set_status target_id status => do
    let _ ← IdentityService.set_account_status target_id status actor_id
    return ()
  | set_roles target_id roles => do
    let _ ← IdentityService.set_account_roles target_id roles
    return ()
  | delete target_id confirm_email =>
    IdentityService.delete_account d target_id confirm_email actor_id

/-- `AuthenticatedUser::require_role`. -/
def require_role (user : AuthenticatedUser) (role : RoleName) : Code AppError Unit :=
  if role ∈ user.user.roles then ret () else throw .forbidden

/-- The handler of an administrative change. -/
def as_admin (claims : AccessClaims) (op : AdminOp) : Code AppError Unit := do
  let user ← mapError .auth (AuthService.authenticate d claims)
  require_role user .admin
  mapError .identity (op.code d user.user.id)

/-- The handler of a password change. -/
def change_password (claims : AccessClaims) (current_password new_password : String) :
    Code AppError Unit := do
  let user ← mapError .auth (AuthService.authenticate d claims)
  match ← mapError .identity (ask (.users (.find_by_id user.user.id))) with
  | none => throw .unauthorized
  | some record =>
    mapError .identity (IdentityService.change_password d record current_password new_password
      user.session_id)

/-- The code a request runs. -/
def Request.code : (r : Request) → Code r.Err r.Res
  | login email password client => AuthService.login d email password client
  | refresh refresh_token => AuthService.refresh d refresh_token
  | authenticate claims => AuthService.authenticate d claims
  | logout session_id => AuthService.logout session_id
  | logout_all user_id => AuthService.logout_all user_id
  | change_password claims current_password new_password =>
    SubmitSnap.change_password d claims current_password new_password
  | reset_password token new_password => IdentityService.reset_password d token new_password
  | request_password_reset email => IdentityService.request_password_reset d email
  | resend_verification email => IdentityService.resend_verification d email
  | verify_email token => IdentityService.verify_email token
  | administer op actor_id => op.code d actor_id
  | as_admin claims op => SubmitSnap.as_admin d claims op
  | unlock_account target_id => do
    let _ ← IdentityService.unlock_account target_id
    return ()
  | revoke_account_sessions target_id => IdentityService.revoke_account_sessions target_id
  | grant_role_by_email email role => IdentityService.grant_role_by_email d email role
  | open_session user_id client => do
    let _ ← AuthService.start_session d user_id client
    return ()
  | revoke_others user_id keep => do
    let _ ← IdentityService.revoke_sessions user_id (some keep)
    return ()
  | create_organization name actor_id => OrganizationService.create name actor_id
  | rename_organization organization_id name actor_id =>
    OrganizationService.rename organization_id name actor_id
  | delete_organization organization_id actor_id =>
    OrganizationService.delete organization_id actor_id
  | add_member organization_id email role actor_id =>
    OrganizationService.add_member d organization_id email role actor_id
  | set_member_role organization_id target_id role actor_id =>
    OrganizationService.set_member_role organization_id target_id role actor_id
  | remove_member organization_id target_id actor_id =>
    OrganizationService.remove_member organization_id target_id actor_id
  | create_form organization_id request actor_id =>
    FormService.create d organization_id request actor_id
  | update_form organization_id form_id request actor_id =>
    FormService.update d organization_id form_id request actor_id
  | publish_form organization_id form_id actor_id =>
    FormService.publish d organization_id form_id actor_id
  | close_form organization_id form_id actor_id =>
    FormService.close organization_id form_id actor_id
  | rotate_public_id organization_id form_id actor_id =>
    FormService.rotate_public_id organization_id form_id actor_id
  | delete_form organization_id form_id actor_id =>
    FormService.delete organization_id form_id actor_id
  | submit public_id payload client referer => FormService.submit d public_id payload client referer
  | set_submission_status organization_id submission_id status actor_id =>
    FormService.set_submission_status organization_id submission_id status actor_id
  | delete_submission organization_id submission_id actor_id =>
    FormService.delete_submission organization_id submission_id actor_id
  | export_submissions organization_id form_id actor_id format rounds =>
    FormService.export_submissions d organization_id form_id actor_id format rounds
  | upload public_id field_key filename declared_type body =>
    FormService.upload d public_id field_key filename declared_type body
  | reap_abandoned_uploads => FormService.reap_abandoned_uploads d
  | create_endpoint organization_id request actor_id =>
    WebhookService.create d organization_id request actor_id
  | update_endpoint organization_id id request actor_id =>
    WebhookService.update d organization_id id request actor_id
  | delete_endpoint organization_id id actor_id =>
    WebhookService.delete organization_id id actor_id
  | rotate_secret organization_id id actor_id =>
    WebhookService.rotate_secret organization_id id actor_id
  | redeliver organization_id delivery_id actor_id =>
    WebhookService.redeliver organization_id delivery_id actor_id
  | deliver_webhooks => WebhookDeliverer.run_once d
  | dispatch_outbox => Dispatcher.run_once d

/-! ### Worlds -/

/-- An entry of the trace. -/
abbrev Event : Type := Interleave.Event Stmt.Reply Failure Database Request

/-- The database, with the trace. -/
abbrev State : Type := Interleave.Shared Stmt.Reply Failure Database Request

/-- A database, a trace, and any number of requests in flight. -/
abbrev World : Type := Interleave.World Stmt.Reply Failure Database Request.Err Request.Res

/-- Which runs are meant. -/
abbrev Regime : Type := Interleave.Regime Stmt.Reply Failure Database Request

/-- What happens next in a run. -/
abbrev Step : Type := Interleave.Action Request Failure Choice ℕ

/-- The runs of a deployment under a regime. -/
abbrev Reaches (G : Regime) (w w' : World) : Prop :=
  G.Reaches (store d.platform) (Request.code d) w w'

/-- The world before any request has arrived. -/
abbrev World.start (db : Database) : World := Interleave.World.start db

/-- Where a list of steps leads from a database with no request in flight. -/
def Deployment.play (G : Regime) [G.Test] (steps : List Step) (db : Database) : World :=
  Interleave.play G (store d.platform) (Request.code d) steps (World.start db)

theorem Deployment.reaches_play (G : Regime) [G.Test] (steps : List Step) (db : Database) :
    Reaches d G (World.start db) (d.play G steps db) :=
  Regime.reaches_play G steps _

theorem Deployment.ended_play (G : Regime) [G.Test] {steps : List Step} {db : Database}
    (h : ∀ p ∈ spawned steps, (d.play G steps db).endedAt p = true) : (d.play G steps db).Ended :=
  Interleave.ended_play G h

/-! ### A database to compute with -/

/-- A verified account with the password `secret`. -/
def UserRecord.sample (id : Uuid) (email : String) : UserRecord where
  id := id
  email := email
  password_hash := Platform.sample.argon2_hash "secret" 0
  status := .active
  email_verified_at := some 0
  last_login_at := none
  failed_login_attempts := 0
  locked_until := none
  password_changed_at := 0
  created_at := 0
  updated_at := 0

def SessionRecord.sample (id user_id : Uuid) : SessionRecord where
  id := id
  user_id := user_id
  user_agent := none
  ip_address := none
  created_at := 0
  last_used_at := 0
  expires_at := seconds 2592000
  revoked_at := none

/-- A text field that may be left empty. -/
def FieldDefinition.sample (key : String) : FieldDefinition where
  key := key
  field_type := .text
  label := key
  required := false
  help := none
  placeholder := none
  min_length := none
  max_length := none
  min := none
  max := none
  options := none
  max_bytes := none
  accept := none

def FormSchema.sample (keys : List String) : FormSchema where
  title := "Contact"
  description := none
  submit_label := none
  fields := keys.map .sample

/-- A published form of organization 1, with the public handle `contact`. -/
def FormRecord.sample : FormRecord where
  id := 2
  organization_id := 1
  name := "Contact"
  status := .published
  public_id := "contact"
  schema := .sample ["name"]
  schema_version := 1
  notify_emails := []
  success_message := none
  redirect_url := none
  honeypot_enabled := true
  created_at := 0
  published_at := some 0
  closed_at := none

/-- Organization 1 with form 2; its owners 8 and 9, both administrators, and their sessions. -/
def Database.sample : Database :=
  { Database.empty with
    users := (Table.empty.insertNew (.sample 8 "ada@example.org")).insertNew
      (.sample 9 "ben@example.org")
    user_roles := (Table.empty.insertNew ⟨8, .admin⟩).insertNew ⟨9, .admin⟩
    sessions := (Table.empty.insertNew (.sample 18 8)).insertNew (.sample 19 9)
    organizations := Table.empty.insertNew ⟨1, "Acme", 0⟩
    organization_members :=
      (Table.empty.insertNew ⟨1, 8, .owner, 0⟩).insertNew ⟨1, 9, .owner, 0⟩
    forms := Table.empty.insertNew .sample
    issued := [1, 2, 8, 9, 18, 19]
    issued_keys := ["contact"] }

/-- The same, where the form asks for a file. -/
def formWithFile : Database :=
  { Database.sample with
    forms := Table.empty.insertNew { FormRecord.sample with
      schema := { FormSchema.sample [] with
        fields := [{ FieldDefinition.sample "cv" with field_type := .file }] } } }

end SubmitSnap
