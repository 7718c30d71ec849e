import SubmitSnap.Interleave.Table
import SubmitSnap.Interleave.RowLock
import SubmitSnap.Session.Model
import SubmitSnap.Organization.Model
import SubmitSnap.Webhook.Model

/-!
# The database, the bucket and the queue

Everything that outlives a request: the tables with their primary keys, the row locks of the
transactions in flight, the objects in the bucket, the email queue, the clock. Only committed rows
are in the tables. A transaction's own writes reach them at its commit, and the locks that keep
others away from the rows it has touched are held until then; since every transaction of the
service reads before it writes, no statement ever has to see an uncommitted row.

## Committed rows only

A transaction of the service first reads and locks, then writes, and does not read again what it
has written. So its writes can be collected and done by its commit all at once, and between two
steps of a run nobody could tell the difference: what others may see of a transaction in flight is
its locks, and these are in the state from the moment they are taken. A unique index is the one
place where an uncommitted row shows, as somebody else has to wait for it. Identifiers that are
generated never collide, and for the few names that could, the commit takes the row only if it is
new.

An identifier that has been given out stays given out (`issued`), whether or not its row was ever
written. That is the whole of what the model knows of `Uuid::new_v4`: two generated ones differ.

A cascade is a consequence of the foreign keys and of nothing else. It does not look at
organizations, it asks nobody, and it takes no lock that the code could have waited for. Several
results come down to this.

## Main definitions

* `Database` — the state.
* `Write` — what a commit can do to the tables.
* `cascadeUser`, `cascadeOrganization`, `cascadeForm`, `cascadeSubmission`, `cascadeEndpoint` — what
  deleting a row takes with it.
-/

namespace SubmitSnap

open Interleave

/-- The rows that are ever locked. -/
inductive Row where
  | user (id : Uuid)
  | one_time_token (id : Uuid)
  | session (id : Uuid)
  | session_token (id : Uuid)
  | organization (id : Uuid)
  | organization_member (organization_id user_id : Uuid)
  | form (id : Uuid)
  | submission (id : Uuid)
  | file_upload (id : Uuid)
  | webhook_endpoint (id : Uuid)
  deriving DecidableEq, Repr

structure Database where
  users : Table UserRecord.id
  user_roles : Table UserRole.key
  one_time_tokens : Table OneTimeToken.id
  sessions : Table SessionRecord.id
  session_tokens : Table SessionToken.id
  organizations : Table OrganizationRecord.id
  organization_members : Table OrganizationMember.key
  forms : Table FormRecord.id
  submissions : Table SubmissionRecord.id
  file_uploads : Table FileUploadRecord.id
  outbox_events : Table OutboxEvent.id
  webhook_endpoints : Table WebhookEndpointRecord.id
  webhook_deliveries : Table WebhookDeliveryRecord.id
  /-- The row locks of the transactions in flight. -/
  locks : Locks Row
  /-- The objects in the bucket, with what they hold. -/
  bucket : List (String × List ℕ)
  /-- The streamed writes in progress: the key of the object to be, and the bytes so far. -/
  multiparts : List (String × List ℕ)
  /-- The email queue, oldest job first. -/
  jobs : List EmailJob
  /-- The identifiers and tokens generated so far. -/
  issued : List ℕ
  /-- The object keys generated so far. -/
  issued_keys : List String
  clock : Timestamp

/-- What the world decides about a statement that leaves something open: the value a random
generator returns, the key a new object gets, how an HTTP request goes. -/
structure Choice where
  id : ℕ := 0
  text : String := ""
  response : Option ℕ := none

namespace Database

/-- The database after the migrations have run. -/
def empty : Database where
  users := .empty
  user_roles := .empty
  one_time_tokens := .empty
  sessions := .empty
  session_tokens := .empty
  organizations := .empty
  organization_members := .empty
  forms := .empty
  submissions := .empty
  file_uploads := .empty
  outbox_events := .empty
  webhook_endpoints := .empty
  webhook_deliveries := .empty
  locks := []
  bucket := []
  multiparts := []
  jobs := []
  issued := []
  issued_keys := []
  clock := 0

variable (db : Database)

/-- The keys of the objects in the bucket. -/
def objects : List String := db.bucket.map (·.1)

/-- What has been handed over so far for the object to be. -/
def bytes_for (key : String) : List ℕ := ((db.multiparts.find? (·.1 == key)).map (·.2)).getD []

/-! ### Locks -/

/-- Whether `p` may lock `row` now. -/
def free (p : ℕ) (row : Row) (mode : LockMode) : Bool := db.locks.grantable p row mode

/-- `p` locks `row` for the rest of its transaction. -/
def lock (p : ℕ) (row : Row) (mode : LockMode) : Database :=
  { db with locks := db.locks.acquire p row mode }

/-- `p` locks every row of a list. -/
def lockAll (p : ℕ) (mode : LockMode) : List Row → Database → Database
  | [], db => db
  | row :: rows, db => lockAll p mode rows (db.lock p row mode)

/-- `p`'s transaction is over. -/
def unlock (p : ℕ) : Database := { db with locks := db.locks.release p }

/-- Whether nobody has generated `n` before. -/
def unused (n : ℕ) : Bool := n ∉ db.issued

/-- `n` has been generated. -/
def issue (n : ℕ) : Database := { db with issued := n :: db.issued }

/-! ### What a delete takes with it -/

/-- The deliveries of a deleted submission forget it, and so do its uploads. -/
def cascadeSubmission (gone : Uuid → Bool) : Database :=
  { db with
    submissions := db.submissions.deleteWhere fun s => gone s.id
    file_uploads := db.file_uploads.updateWhere (fun u => u.submission_id.any gone)
      (fun u => { u with submission_id := none }) fun _ => rfl
    webhook_deliveries := db.webhook_deliveries.updateWhere (fun d => d.submission_id.any gone)
      (fun d => { d with submission_id := none }) fun _ => rfl }

/-- The deliveries of a deleted endpoint go with it. -/
def cascadeEndpoint (gone : Uuid → Bool) : Database :=
  { db with
    webhook_endpoints := db.webhook_endpoints.deleteWhere fun e => gone e.id
    webhook_deliveries := db.webhook_deliveries.deleteWhere fun d => gone d.endpoint_id }

/-- The ids of the submissions satisfying `sel`, as a predicate. -/
def submissionsWhere (sel : SubmissionRecord → Bool) (id : Uuid) : Bool :=
  db.submissions.rows.any fun s => s.id == id && sel s

/-- The ids of the endpoints satisfying `sel`, as a predicate. -/
def endpointsWhere (sel : WebhookEndpointRecord → Bool) (id : Uuid) : Bool :=
  db.webhook_endpoints.rows.any fun e => e.id == id && sel e

/-- The ids of the forms satisfying `sel`, as a predicate. -/
def formsWhere (sel : FormRecord → Bool) (id : Uuid) : Bool :=
  db.forms.rows.any fun f => f.id == id && sel f

/-- A deleted form takes its submissions, its ledger rows and its endpoints. -/
def cascadeForm (gone : Uuid → Bool) : Database :=
  let db₁ := db.cascadeSubmission (db.submissionsWhere fun s => gone s.form_id)
  let db₂ := db₁.cascadeEndpoint (db₁.endpointsWhere fun e => e.form_id.any gone)
  { db₂ with
    forms := db₂.forms.deleteWhere fun f => gone f.id
    file_uploads := db₂.file_uploads.deleteWhere fun u => gone u.form_id }

/-- A deleted organization takes everything that belongs to it. -/
def cascadeOrganization (gone : Uuid) : Database :=
  let db₁ := db.cascadeForm (db.formsWhere fun f => f.organization_id == gone)
  let db₂ := db₁.cascadeSubmission (db₁.submissionsWhere fun s => s.organization_id == gone)
  let db₃ := db₂.cascadeEndpoint (db₂.endpointsWhere fun e => e.organization_id == gone)
  { db₃ with
    organizations := db₃.organizations.deleteWhere fun o => o.id == gone
    organization_members :=
      db₃.organization_members.deleteWhere fun m => m.organization_id == gone
    file_uploads := db₃.file_uploads.deleteWhere fun u => u.organization_id == gone
    outbox_events := db₃.outbox_events.deleteWhere fun e => e.organization_id == gone
    webhook_deliveries := db₃.webhook_deliveries.deleteWhere fun d => d.organization_id == gone }

/-- A deleted account takes its roles, its tokens, its sessions and its memberships. -/
def cascadeUser (gone : Uuid) : Database :=
  let dead := fun id => db.sessions.rows.any fun s => s.id == id && s.user_id == gone
  { db with
    users := db.users.deleteWhere fun u => u.id == gone
    user_roles := db.user_roles.deleteWhere fun r => r.user_id == gone
    one_time_tokens := db.one_time_tokens.deleteWhere fun t => t.user_id == gone
    sessions := db.sessions.deleteWhere fun s => s.user_id == gone
    session_tokens := db.session_tokens.deleteWhere fun t => dead t.session_id
    organization_members := db.organization_members.deleteWhere fun m => m.user_id == gone }

end Database

/-! ### Commits -/

/-- One row written by a transaction, as it takes effect at the commit. -/
inductive Write where
  | session (row : SessionRecord)
  | session_token (row : SessionToken)
  /-- `UPDATE session_tokens SET used_at, replaced_by`. -/
  | use_token (id : Uuid) (now : Timestamp) (replaced_by : Uuid)
  /-- `UPDATE sessions SET last_used_at`. -/
  | touch_session (id : Uuid) (now : Timestamp)
  /-- `UPDATE one_time_tokens SET consumed_at`, for the rows the statement found. -/
  | consume_tokens (ids : List Uuid) (now : Timestamp)
  | one_time_token (row : OneTimeToken)
  | organization (row : OrganizationRecord)
  /-- `INSERT … ON CONFLICT DO UPDATE SET role`. -/
  | organization_member (row : OrganizationMember)
  | remove_member (organization_id user_id : Uuid)
  | submission (row : SubmissionRecord)
  /-- `UPDATE file_uploads SET submission_id`, for the rows the statement found. -/
  | claim_uploads (ids : List Uuid) (submission_id : Uuid)
  | outbox_event (row : OutboxEvent)

namespace Write

/-- What one write does to the committed rows. -/
def apply (db : Database) : Write → Database
  | session row => { db with sessions := db.sessions.insertNew row }
  | session_token row => { db with session_tokens := db.session_tokens.insertNew row }
  | use_token id now replaced_by =>
    { db with
      session_tokens := db.session_tokens.updateWhere (fun t => t.id == id)
        (fun t => { t with used_at := some now, replaced_by := some replaced_by }) fun _ => rfl }
  | touch_session id now =>
    { db with
      sessions := db.sessions.updateWhere (fun s => s.id == id)
        (fun s => { s with last_used_at := now }) fun _ => rfl }
  | consume_tokens ids now =>
    { db with
      one_time_tokens := db.one_time_tokens.updateWhere (fun t => t.id ∈ ids)
        (fun t => { t with consumed_at := some now }) fun _ => rfl }
  | one_time_token row => { db with one_time_tokens := db.one_time_tokens.insertNew row }
  | organization row => { db with organizations := db.organizations.insertNew row }
  | organization_member row =>
    { db with
      organization_members :=
        (db.organization_members.updateWhere (fun m => m.key == row.key)
          (fun m => { m with role := row.role }) fun _ => rfl).insertNew row }
  | remove_member organization_id user_id =>
    { db with
      organization_members := db.organization_members.deleteWhere fun m =>
        m.organization_id == organization_id && m.user_id == user_id }
  | submission row => { db with submissions := db.submissions.insertNew row }
  | claim_uploads ids submission_id =>
    { db with
      file_uploads := db.file_uploads.updateWhere (fun u => u.id ∈ ids)
        (fun u => { u with submission_id := some submission_id }) fun _ => rfl }
  | outbox_event row => { db with outbox_events := db.outbox_events.insertNew row }

/-- What a commit does: every write, in order. -/
def applyAll (db : Database) (ws : List Write) : Database := ws.foldl apply db

@[simp] theorem applyAll_nil (db : Database) : applyAll db [] = db := rfl

@[simp] theorem applyAll_cons (db : Database) (w : Write) (ws : List Write) :
    applyAll db (w :: ws) = applyAll (w.apply db) ws := rfl

end Write

end SubmitSnap
