import SubmitSnap.Database
import SubmitSnap.Interleave.Keyset

/-!
# Forms: the statements on `forms`, `submissions` and `file_uploads`

A single `INSERT` that nobody wraps in a transaction still has one: `insert` of a submission takes
the locks of the rows it refers to, decides on its snapshot whether an outbox event is owed, and is
applied by the commit that follows.
-/

namespace SubmitSnap

open Interleave

/-! ### `FormRepository` -/

inductive FormStmt where
  | create (organization_id : Uuid) (name public_id : String) (schema : FormSchema)
      (notify_emails : List String)
  | find (organization_id id : Uuid)
  | find_by_public_id (public_id : String)
  | replace_definition (organization_id id : Uuid) (name : String) (schema : FormSchema)
      (schema_changed : Bool) (notify_emails : List String)
      (success_message redirect_url : Option String) (honeypot_enabled : Bool)
  | set_status (organization_id id : Uuid) (status : FormStatus)
  | set_public_id (organization_id id : Uuid) (public_id : String)
  | delete (organization_id id : Uuid)

abbrev FormStmt.Reply : FormStmt → Type
  | create _ _ _ _ _ => FormRecord
  | find _ _ | find_by_public_id _ => Option FormRecord
  | _ => Bool

namespace Database

/-- The form of that organization with that id. -/
def formOf (db : Database) (organization_id id : Uuid) : Option FormRecord :=
  db.forms.rows.find? fun f => f.organization_id == organization_id && f.id == id

/-- `UPDATE forms SET … WHERE organization_id = $1 AND id = $2`. -/
def updateForm (db : Database) (organization_id id : Uuid) (f : FormRecord → FormRecord)
    (hf : ∀ r, (f r).id = r.id) : Database :=
  { db with
    forms := db.forms.updateWhere (fun r => r.organization_id == organization_id && r.id == id)
      f hf }

end Database

/-- The check constraints of `forms` that depend on the caller. -/
def formChecks (name : String) (notify_emails : List String) : Option Failure :=
  if name.length = 0 ∨ 120 < name.length then some (.check "forms_name_length_check")
  else if 20 < notify_emails.length then some (.check "forms_notify_emails_count_check")
  else none

/-- What a statement on `forms` does. -/
def FormStmt.run (p : ℕ) (c : Choice) (db : Database) :
    (q : FormStmt) → Option (Database × Except Failure q.Reply)
  | create organization_id name public_id schema notify_emails =>
    if db.unused c.id && db.free p (.organization organization_id) .keyShare then
      match formChecks name notify_emails with
      | some e => some (db, .error e)
      | none =>
        if db.forms.rows.any fun f => f.public_id == public_id then
          some (db, .error (.unique "forms_public_id_key"))
        else if !db.organizations.hasKey organization_id then
          some (db, .error (.foreign_key "forms_organization_id_fkey"))
        else
          let form : FormRecord :=
            { id := c.id, organization_id, name, status := .draft, public_id, schema
              schema_version := 1, notify_emails, success_message := none, redirect_url := none
              honeypot_enabled := true, created_at := db.clock, published_at := none
              closed_at := none }
          some ({ db.issue c.id with forms := db.forms.insertNew form }, .ok form)
    else none
  | find organization_id id => some (db, .ok (db.formOf organization_id id))
  | find_by_public_id public_id =>
    some (db, .ok (db.forms.rows.find? fun f => f.public_id == public_id))
  | replace_definition organization_id id name schema schema_changed notify_emails success_message
      redirect_url honeypot_enabled =>
    if db.free p (.form id) .noKeyUpdate then
      match db.formOf organization_id id, formChecks name notify_emails with
      | none, _ => some (db, .ok false)
      | some _, some e => some (db, .error e)
      | some _, none =>
        some (db.updateForm organization_id id (fun f =>
          { f with
            name := name, schema := schema
            schema_version := if schema_changed then f.schema_version + 1 else f.schema_version
            notify_emails := notify_emails, success_message := success_message
            redirect_url := redirect_url, honeypot_enabled := honeypot_enabled }) fun _ => rfl,
          .ok true)
    else none
  | set_status organization_id id status =>
    if db.free p (.form id) .noKeyUpdate then
      some (db.updateForm organization_id id (fun f =>
        { f with
          status := status
          published_at := if status = .published then some db.clock else f.published_at
          closed_at := if status = .closed then some db.clock else f.closed_at }) fun _ => rfl,
        .ok (db.formOf organization_id id).isSome)
    else none
  | set_public_id organization_id id public_id =>
    -- The column has a unique index, so the row is locked like one whose key changes.
    if db.free p (.form id) .update then
      if db.forms.rows.any fun f => f.public_id == public_id && f.id != id then
        some (db, .error (.unique "forms_public_id_key"))
      else
        some (db.updateForm organization_id id (fun f => { f with public_id := public_id })
          fun _ => rfl, .ok (db.formOf organization_id id).isSome)
    else none
  | delete organization_id id =>
    match db.formOf organization_id id with
    | none => some (db, .ok false)
    | some _ =>
      if db.free p (.form id) .update &&
          (db.file_uploads.rows.all fun u =>
            u.form_id != id || db.free p (.file_upload u.id) .update) then
        some (db.cascadeForm (· == id), .ok true)
      else none

/-! ### `SubmissionRepository` -/

/-- Its place in the order `created_at, id`. -/
def SubmissionRecord.place (row : SubmissionRecord) : Timestamp ×ₗ Uuid :=
  toLex (row.created_at, row.id)

inductive SubmissionStmt where
  | insert (submission : NewSubmission) (now : Timestamp)
  | find (organization_id id : Uuid)
  | page_after (form_id : Uuid) (after : Option (Timestamp ×ₗ Uuid)) (limit : ℕ)
  | distinct_answer_keys (form_id : Uuid)
  | set_status (organization_id id : Uuid) (status : SubmissionStatus)
  | delete (organization_id id : Uuid)

abbrev SubmissionStmt.Reply : SubmissionStmt → Type
  | insert _ _ => SubmissionRecord × Option OutboxEvent
  | find _ _ => Option SubmissionRecord
  | page_after _ _ _ => List SubmissionRecord
  | distinct_answer_keys _ => List String
  | set_status _ _ _ | delete _ _ => Bool

namespace Database

/-- Whether some enabled endpoint wants the submissions of this form. -/
def wanted (db : Database) (organization_id form_id : Uuid) : Bool :=
  db.webhook_endpoints.rows.any fun e =>
    e.organization_id == organization_id && e.enabled && e.form_id.all (· == form_id)

/-- The submission of that organization with that id. -/
def submissionOf (db : Database) (organization_id id : Uuid) : Option SubmissionRecord :=
  db.submissions.rows.find? fun s => s.organization_id == organization_id && s.id == id

/-- The submissions of a form. -/
def submissionsOf (db : Database) (form_id : Uuid) : List SubmissionRecord :=
  db.submissions.rows.filter fun s => s.form_id == form_id

end Database

/-- SQLSTATE of a `jsonb` value that cannot be stored. -/
def UNTRANSLATABLE_CHARACTER : String := "22P05"

/-- The row of a new submission. -/
def NewSubmission.row (n : NewSubmission) (id : Uuid) (now : Timestamp) : SubmissionRecord where
  id := id
  organization_id := n.organization_id
  form_id := n.form_id
  schema_version := n.schema_version
  data := n.data
  files := n.files.getD []
  status := n.status
  ip_address := n.ip_address
  user_agent := n.user_agent
  referer := n.referer
  created_at := now

/-- The event a submission owes. -/
def NewSubmission.event (n : NewSubmission) (id : Uuid) (now : Timestamp) : OutboxEvent where
  id := id
  organization_id := n.organization_id
  form_id := n.form_id
  submission_id := id
  attempts := 0
  available_at := now
  dispatched_at := none
  last_error := none
  created_at := now

/-- What a statement on `submissions` does. -/
def SubmissionStmt.run (p : ℕ) (c : Choice) (db : Database) :
    (q : SubmissionStmt) → Option (Database × Except Failure q.Reply)
  | insert n now =>
    if Map.has_nul n.data then
      -- A `jsonb` value holds no U+0000.
      some (db, .error (.raised UNTRANSLATABLE_CHARACTER "unsupported Unicode escape sequence"))
    else if db.unused c.id && db.free p (.form n.form_id) .keyShare &&
        db.free p (.organization n.organization_id) .keyShare then
      if !db.organizations.hasKey n.organization_id then
        some (db, .error (.foreign_key "submissions_organization_id_fkey"))
      else if !db.forms.hasKey n.form_id then
        some (db, .error (.foreign_key "submissions_form_id_fkey"))
      else
        let event :=
          if n.notify || db.wanted n.organization_id n.form_id then some (n.event c.id now)
          else none
        some (((db.issue c.id).lock p (.form n.form_id) .keyShare).lock p
          (.organization n.organization_id) .keyShare, .ok (n.row c.id now, event))
    else none
  | find organization_id id => some (db, .ok (db.submissionOf organization_id id))
  | page_after form_id after limit =>
    some (db, .ok (Keyset.page SubmissionRecord.place (db.submissionsOf form_id) after limit))
  | distinct_answer_keys form_id =>
    some (db, .ok ((db.submissionsOf form_id).flatMap fun s => s.data.keys).dedup)
  | set_status organization_id id status =>
    if db.free p (.submission id) .noKeyUpdate then
      some ({ db with
        submissions := db.submissions.updateWhere
          (fun s => s.organization_id == organization_id && s.id == id)
          (fun s => { s with status := status }) fun _ => rfl },
        .ok (db.submissionOf organization_id id).isSome)
    else none
  | delete organization_id id =>
    match db.submissionOf organization_id id with
    | none => some (db, .ok false)
    | some _ =>
      if db.free p (.submission id) .update &&
          (db.file_uploads.rows.all fun u =>
            u.submission_id != some id || db.free p (.file_upload u.id) .noKeyUpdate) then
        some (db.cascadeSubmission (· == id), .ok true)
      else none

/-! ### `FileUploadRepository` -/

inductive UploadStmt where
  | insert (upload : NewFileUpload)
  | lock_for_claim (form_id : Uuid) (object_keys : List String)
  /-- The unclaimed uploads the update finds; the commit claims them. -/
  | claim (object_keys : List String)
  | abandoned (older_than : Timestamp) (limit : ℕ)
  | forget (id : Uuid)

abbrev UploadStmt.Reply : UploadStmt → Type
  | insert _ => FileUploadRecord
  | lock_for_claim _ _ | abandoned _ _ => List FileUploadRecord
  | claim _ => List Uuid
  | forget _ => Unit

/-- What a statement on `file_uploads` does. -/
def UploadStmt.run (p : ℕ) (c : Choice) (db : Database) :
    (q : UploadStmt) → Option (Database × Except Failure q.Reply)
  | insert u =>
    if db.unused c.id && db.free p (.form u.form_id) .keyShare &&
        db.free p (.organization u.organization_id) .keyShare then
      if u.size_bytes = 0 then some (db, .error (.check "file_uploads_size_check"))
      else if db.file_uploads.rows.any fun u' => u'.object_key == u.object_key then
        some (db, .error (.unique "file_uploads_object_key_key"))
      else if !db.organizations.hasKey u.organization_id then
        some (db, .error (.foreign_key "file_uploads_organization_id_fkey"))
      else if !db.forms.hasKey u.form_id then
        some (db, .error (.foreign_key "file_uploads_form_id_fkey"))
      else
        let row : FileUploadRecord :=
          { id := c.id, organization_id := u.organization_id, form_id := u.form_id
            field_key := u.field_key, object_key := u.object_key, filename := u.filename
            content_type := u.content_type, size_bytes := u.size_bytes, submission_id := none
            created_at := db.clock }
        some ({ db.issue c.id with file_uploads := db.file_uploads.insertNew row }, .ok row)
    else none
  | lock_for_claim form_id object_keys =>
    let found := db.file_uploads.rows.filter fun u =>
      u.form_id == form_id && u.object_key ∈ object_keys
    if found.all fun u => db.free p (.file_upload u.id) .update then
      some (db.lockAll p .update (found.map fun u => .file_upload u.id),
        .ok (found.insertionSort fun u u' => u.object_key ≤ u'.object_key))
    else none
  | claim object_keys =>
    let found := (db.file_uploads.rows.filter fun u =>
      u.object_key ∈ object_keys && u.submission_id.isNone).map (·.id)
    if found.all fun id => db.free p (.file_upload id) .noKeyUpdate then
      some (db.lockAll p .noKeyUpdate (found.map .file_upload), .ok found)
    else none
  | abandoned older_than limit =>
    some (db, .ok (((db.file_uploads.rows.filter fun u =>
      u.submission_id.isNone && u.created_at < older_than).insertionSort
        fun u u' => u.created_at ≤ u'.created_at).take limit))
  | forget id =>
    if db.free p (.file_upload id) .update then
      some ({ db with file_uploads := db.file_uploads.deleteWhere fun u => u.id == id }, .ok ())
    else none

end SubmitSnap
