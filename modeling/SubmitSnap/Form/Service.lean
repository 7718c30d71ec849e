import SubmitSnap.Form.Export
import SubmitSnap.Form.Upload
import SubmitSnap.Organization.Service

/-!
# Form lifecycle and public ingestion

Access is resolved through the organization service, so a form is never reached across tenants. The
audit trail is left out, as everywhere in this model.
-/

namespace SubmitSnap

open Interleave
open Interleave.Script (ret when mapError result forEach)

/-- Only the two organization outcomes that matter here are carried over. -/
def FormError.ofOrganization : OrganizationError → FormError
  | .not_found | .account_not_found | .member_not_found => .not_found
  | .not_a_member | .insufficient_role => .forbidden
  | .last_owner => .internal .unavailable
  | .internal cause => .internal cause

structure CreateFormRequest where
  name : String
  schema : FormSchema
  notify_emails : List String

/-- Every field is optional: an absent one is left alone, and an inner `none` clears the column. -/
structure UpdateFormRequest where
  name : Option String
  schema : Option FormSchema
  notify_emails : Option (List String)
  success_message : Option (Option String)
  redirect_url : Option (Option String)
  honeypot_enabled : Option Bool

structure SubmissionAccepted where
  id : Uuid
  success_message : Option String
  redirect_url : Option String
  deriving DecidableEq, Repr

structure UploadedFile where
  key : String
  filename : String
  content_type : String
  size : ℕ
  deriving DecidableEq, Repr

/-- How many abandoned uploads one reaper pass will collect. -/
def REAP_BATCH : ℕ := 200

def EXPORT_BATCH : ℕ := 500

/-- An export, with what its body has carried, chunk by chunk, and whether that was all. -/
structure ExportStream where
  content_type : String
  filename : String
  body : List (Except Failure String)
  ended : Bool

/-! ### Checks -/

/-- A definition is checked on every write. -/
def check_schema (d : Deployment) (schema : FormSchema) (require_submittable : Bool) :
    Except FormError Unit :=
  match validate_schema d.platform schema with
  | .error problems => .error (.invalid_schema (String.intercalate "; " problems))
  | .ok () =>
    if require_submittable && schema.has_file_field && !d.config.storage_enabled then
      .error .file_uploads_unavailable
    else .ok ()

def check_name (name : String) : Except FormError Unit :=
  if name.isEmpty || 120 < name.length then
    .error (.invalid_schema "name must be between 1 and 120 characters")
  else .ok ()

def check_redirect_url : Option String → Except FormError Unit
  | none => .ok ()
  | some url =>
    if starts_with url "https://" || starts_with url "http://" then .ok ()
    else .error (.invalid_schema "redirect_url must be an http or https address")

def check_notify_emails (P : Platform) (emails : List String) : Except FormError Unit :=
  if 20 < emails.length then .error (.invalid_schema "at most 20 notification addresses")
  else
    match emails.find? fun email => !P.validate_email email with
    | some bad => .error (.invalid_schema (bad ++ " is not a valid email address"))
    | none => .ok ()

def honeypot_was_filled (payload : Map) : Bool :=
  match payload.get HONEYPOT_FIELD with
  | none | some .null => false
  | some (.string text) => !(trim text).isEmpty
  | some _ => true

/-- The file answers in a validated payload, as (field key, object key) pairs. -/
def file_answers (schema : FormSchema) (data : Map) : List (String × String) :=
  (schema.fields.filter fun field => field.field_type == .file).filterMap fun field =>
    ((data.get field.key).bind Value.as_str).map fun object_key => (field.key, object_key)

/-- Matches each file answer against the upload ledger. -/
def check_file_references (recorded : List FileUploadRecord) :
    List (String × String) → Except FormError (List (String × FileMetadata))
  | [] => .ok []
  | (field_key, object_key) :: answers =>
    match recorded.find? fun upload => upload.object_key == object_key with
    | none => .error (.file_rejected (field_key ++ " refers to a file this form did not receive"))
    | some upload =>
      if upload.submission_id.isSome then
        .error (.file_rejected
          (field_key ++ " refers to a file another submission already used"))
      else if upload.field_key ≠ field_key then
        .error (.file_rejected (field_key ++ " refers to a file uploaded for a different field"))
      else do
        let metadata ← check_file_references recorded answers
        return (field_key, upload.metadata) :: metadata

/-- The definition an update asks for, over the one it has loaded. -/
def UpdateFormRequest.over (request : UpdateFormRequest) (current : FormRecord) : FormRecord :=
  { current with
    name := (request.name.map trim).getD current.name
    schema := request.schema.getD current.schema
    notify_emails := request.notify_emails.getD current.notify_emails
    success_message := request.success_message.getD current.success_message
    redirect_url := request.redirect_url.getD current.redirect_url
    honeypot_enabled := request.honeypot_enabled.getD current.honeypot_enabled }

/-- What an update checks before it writes. -/
def check_update (d : Deployment) (current wanted : FormRecord) : Except FormError Unit := do
  check_name wanted.name
  check_schema d wanted.schema current.status.accepts_submissions
  check_redirect_url wanted.redirect_url
  check_notify_emails d.platform wanted.notify_emails

namespace FormService

variable (d : Deployment)

def access (organization_id actor_id : Uuid) : Code FormError Access :=
  mapError .ofOrganization (OrganizationService.access organization_id actor_id)

/-- `access` followed by `require_manager`. -/
def manager_access (organization_id actor_id : Uuid) : Code FormError Unit := do
  let standing ← access organization_id actor_id
  mapError .ofOrganization (OrganizationService.require_manager standing.role)

def load (organization_id form_id : Uuid) : Code FormError FormRecord := do
  match ← ask (.forms (.find organization_id form_id)) with
  | none => throw .not_found
  | some form => return form

def get (organization_id form_id actor_id : Uuid) : Code FormError FormRecord := do
  let _ ← access organization_id actor_id
  load organization_id form_id

/-- Resolves a public handle, refusing the states that must not accept submissions. -/
def load_published (public_id : String) : Code FormError FormRecord := do
  match ← ask (.forms (.find_by_public_id public_id)) with
  | none => throw .not_found
  | some form =>
    match form.status with
    | .published => return form
    | .draft => throw .not_found
    | .closed => throw .closed

def create (organization_id : Uuid) (request : CreateFormRequest) (actor_id : Uuid) :
    Code FormError FormRecord := do
  manager_access organization_id actor_id
  -- A draft may hold a file field; publishing is what demands storage.
  require (check_schema d request.schema false)
  let public_id ← ask .generate_key
  ask (.forms (.create organization_id (trim request.name) public_id request.schema
    request.notify_emails))

/-- The one statement that writes a definition: the row of that form becomes what `wanted` says. -/
def replace_definition (organization_id form_id : Uuid) (current wanted : FormRecord) :
    Code FormError Bool :=
  ask (.forms (.replace_definition organization_id form_id wanted.name wanted.schema
    (wanted.schema.fields ≠ current.schema.fields) wanted.notify_emails wanted.success_message
    wanted.redirect_url wanted.honeypot_enabled))

def update (organization_id form_id : Uuid) (request : UpdateFormRequest) (actor_id : Uuid) :
    Code FormError FormRecord := do
  manager_access organization_id actor_id
  let current ← load organization_id form_id
  require (check_update d current (request.over current))
  let updated ← replace_definition organization_id form_id current (request.over current)
  if !updated then throw .not_found else get organization_id form_id actor_id

def delete (organization_id form_id actor_id : Uuid) : Code FormError Unit := do
  manager_access organization_id actor_id
  let _ ← load organization_id form_id
  let found ← ask (.forms (.delete organization_id form_id))
  if !found then throw .not_found else return ()

def publish (organization_id form_id actor_id : Uuid) : Code FormError FormRecord := do
  manager_access organization_id actor_id
  let form ← load organization_id form_id
  -- Re-checked here because publishing is the moment a definition starts accepting input.
  require (check_schema d form.schema true)
  let _ ← ask (.forms (.set_status organization_id form_id .published))
  get organization_id form_id actor_id

def close (organization_id form_id actor_id : Uuid) : Code FormError FormRecord := do
  manager_access organization_id actor_id
  let form ← load organization_id form_id
  if !form.status.accepts_submissions then
    throw (.invalid_schema "only a published form can be closed")
  else do
    let _ ← ask (.forms (.set_status organization_id form_id .closed))
    get organization_id form_id actor_id

/-- Issues a new public handle, which instantly invalidates the old link. -/
def rotate_public_id (organization_id form_id actor_id : Uuid) : Code FormError FormRecord := do
  manager_access organization_id actor_id
  let _ ← load organization_id form_id
  let public_id ← ask .generate_key
  let _ ← ask (.forms (.set_public_id organization_id form_id public_id))
  get organization_id form_id actor_id

/-! ### Submissions -/

/-- The writes of a new submission, next to those of its uploads. -/
def submission_writes (row : SubmissionRecord) (event : Option OutboxEvent) : List Write :=
  .submission row :: event.toList.map .outbox_event

/-- `INSERT INTO submissions`, on its own. -/
def insert_submission (submission : NewSubmission) : Code FormError Uuid :=
  transaction fun now => do
    let (row, event) ← ask (.submissions (.insert submission now))
    ask (.commit (submission_writes row event))
    return row.id

/-- Writes a submission and hands it the uploads it refers to, in one transaction. -/
def insert_claiming_files (submission : NewSubmission) (answers : List (String × String)) :
    Code FormError Uuid :=
  let object_keys := answers.map (·.2)
  transaction fun now => do
    let recorded ← ask (.uploads (.lock_for_claim submission.form_id object_keys))
    let metadata ← require (check_file_references recorded answers)
    let (row, event) ← ask (.submissions
      (.insert { submission with files := some metadata } now))
    let claimed ← ask (.uploads (.claim object_keys))
    if claimed.length ≠ object_keys.length then
      throw (.file_rejected "a file was claimed by another submission")
    else do
      ask (.commit (submission_writes row event ++ [.claim_uploads claimed row.id]))
      return row.id

/-- What a submission to a form stores, given its validated answers. -/
def new_submission (form : FormRecord) (payload answers : Map) (client : ClientInfo)
    (referer : Option String) : NewSubmission where
  organization_id := form.organization_id
  form_id := form.id
  schema_version := form.schema_version
  data := answers
  files := none
  status := if form.honeypot_enabled && honeypot_was_filled payload then .spam else .unread
  ip_address := client.ip_address
  user_agent := client.user_agent
  referer := referer
  notify := !form.notify_emails.isEmpty

/-- The public hot path: resolve, validate, insert. -/
def submit (public_id : String) (payload : Map) (client : ClientInfo) (referer : Option String) :
    Code FormError SubmissionAccepted := do
  let form ← load_published public_id
  let allowed ← ask (.check_key form.id)
  if !allowed then throw .too_many_submissions
  else
    match validate_submission d.platform form.schema payload with
    | .error problems => throw (.invalid_submission (String.intercalate "; " problems))
    | .ok answers => do
      let submission := new_submission form payload answers client referer
      let files := file_answers form.schema answers
      -- A form with no file answers keeps the single-statement path.
      let id ← if files.isEmpty then insert_submission submission
        else insert_claiming_files submission files
      return ⟨id, form.success_message, form.redirect_url⟩

def set_submission_status (organization_id submission_id : Uuid) (status : SubmissionStatus)
    (actor_id : Uuid) : Code FormError SubmissionRecord := do
  manager_access organization_id actor_id
  match ← ask (.submissions (.find organization_id submission_id)) with
  | none => throw .not_found
  | some _ => do
    let found ← ask (.submissions (.set_status organization_id submission_id status))
    if !found then throw .not_found
    else do
      let _ ← access organization_id actor_id
      match ← ask (.submissions (.find organization_id submission_id)) with
      | none => throw .not_found
      | some row => return row

def delete_submission (organization_id submission_id actor_id : Uuid) : Code FormError Unit := do
  manager_access organization_id actor_id
  let found ← ask (.submissions (.delete organization_id submission_id))
  if !found then throw .not_found else return ()

/-! ### Exports -/

/-- The task behind an export, for the given number of rounds: what it sends after the opening, and
whether it comes to its end. -/
def export_rows (format : ExportFormat) (form_id : Uuid) (columns : List String) :
    (rounds : ℕ) → Option (Timestamp ×ₗ Uuid) → Bool →
      Code FormError (List (Except Failure String) × Bool)
  | 0, _, _ => return ([], false)
  | rounds + 1, after, first_row => do
    match ← attempt (.submissions (.page_after form_id after EXPORT_BATCH)) with
    | .error e => return ([.error e], true)
    | .ok batch =>
      match batch.getLast? with
      | none => return (closing format, true)
      | some last => do
        let (text, first_row) := batch_text d.platform format columns batch first_row
        let (rest, ended) ← export_rows format form_id columns rounds (some last.place) first_row
        return (.ok text :: rest, ended)

/-- Opens an export, and follows it to its end. -/
def export_submissions (organization_id form_id actor_id : Uuid) (format : ExportFormat)
    (rounds : ℕ) : Code FormError ExportStream := do
  let _ ← access organization_id actor_id
  let form ← load organization_id form_id
  let keys ← ask (.submissions (.distinct_answer_keys form_id))
  let columns := export_columns form keys
  -- The opening is sent before any rows are read, so the export of an empty form is well formed.
  let (rows, ended) ← export_rows d format form_id columns rounds none true
  return {
    content_type := match format with
      | .csv => "text/csv; charset=utf-8"
      | .json => "application/json; charset=utf-8"
    filename := form.name ++ "-submissions." ++ match format with
      | .csv => "csv"
      | .json => "json"
    body := .ok (opening format columns) :: rows
    ended := ended }

/-! ### Uploads -/

/-- The ledger row of a completed object. Without one nothing could ever claim the object, so it is
removed when the row cannot be written. -/
def record_upload (upload : NewFileUpload) : Code FormError UploadedFile := do
  match ← attempt (.uploads (.insert upload)) with
  | .ok row => return ⟨row.object_key, row.filename, row.content_type, row.size_bytes⟩
  | .error e => do
    let _ ← attempt (.delete_object upload.object_key)
    throw (.internal e)

/-- The field an upload answers, and the media type declared for it. -/
def upload_target (form : FormRecord) (field_key : String) (declared_type : Option String) :
    Except FormError (FieldDefinition × String) :=
  match (form.schema.field field_key).filter fun field => field.field_type == .file with
  | none => .error (.file_rejected (field_key ++ " is not a file field on this form"))
  | some field => do
    let declared ← check_declared_type field (normalise_content_type declared_type)
    return (field, declared)

/-- Streams an upload into storage, enforcing the field's rules on the bytes that arrive. -/
def upload (public_id field_key : String) (filename declared_type : Option String)
    (body : List Chunk) : Code FormError UploadedFile := do
  if !d.config.storage_enabled then throw .file_uploads_unavailable
  else do
    let form ← load_published public_id
    let allowed ← ask (.check_key form.id)
    if !allowed then throw .too_many_submissions
    else do
      let (field, declared) ← require (upload_target form field_key declared_type)
      -- A form cannot raise the instance ceiling, only lower it.
      let limit := min (field.max_bytes.getD d.config.upload_max_bytes) d.config.upload_max_bytes
      let object_key ← ask .generate_key
      ask (.begin_upload object_key)
      match ← result (stream_upload object_key (some declared) limit body ⟨0, [], false⟩) with
      | .error e => do
        -- A request that failed must leave nothing behind in the bucket.
        let _ ← attempt (.abort_upload object_key)
        throw e
      | .ok size => do
        UploadWriter.finish object_key d.platform
        record_upload
          { organization_id := form.organization_id, form_id := form.id, field_key, object_key
            filename := clean_filename filename, content_type := declared, size_bytes := size }

/-- One abandoned upload: the object first, so that a failure leaves the row for the next pass. -/
def reap (upload : FileUploadRecord) : Code FormError Unit := do
  match ← attempt (.delete_object upload.object_key) with
  | .error _ => return ()
  | .ok () => ask (.uploads (.forget upload.id))

/-- Deletes uploads no submission ever claimed, and the objects behind them. -/
def reap_abandoned_uploads : Code FormError Unit := do
  if !d.config.storage_enabled then return ()
  else do
    let now ← ask .now
    let abandoned ← ask (.uploads
      (.abandoned (now - seconds (d.config.upload_ttl_hours * 60 * 60)) REAP_BATCH))
    forEach reap abandoned

end FormService

end SubmitSnap
