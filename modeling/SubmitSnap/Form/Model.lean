import SubmitSnap.Shared

/-!
# Forms, submissions and uploads

A JSON number is never NaN or infinite, and the bounds of a number field are rationals. What the
code compares are the doubles nearest to them, `Platform.as_f64`. A JSON object is the list of its
entries, in key order.
-/

namespace SubmitSnap

open Interleave

/-- `serde_json::Value`. -/
inductive Value where
  | null
  | bool (b : Bool)
  | number (n : Number)
  | string (s : String)
  | array (items : List Value)
  | object (entries : List (String × Value))

/-- `serde_json::Map<String, Value>`. -/
abbrev Map : Type := List (String × Value)

/-- `Map::get`. -/
def Map.get (m : Map) (key : String) : Option Value := List.lookup key m

/-- `Map::keys`, and the database's `jsonb_object_keys`. -/
def Map.keys (m : Map) : List String := List.map Prod.fst m

def Value.as_str : Value → Option String
  | .string s => some s
  | _ => none

/-- Whether a text contains U+0000. -/
def text_has_nul (s : String) : Bool := s.toList.any fun c => c.toNat == 0

mutual

/-- Whether a string or a key anywhere in the value contains U+0000. -/
def Value.has_nul : Value → Bool
  | .string s => text_has_nul s
  | .array items => Value.any_has_nul items
  | .object entries => Map.has_nul entries
  | .null | .bool _ | .number _ => false

def Value.any_has_nul : List Value → Bool
  | [] => false
  | item :: items => item.has_nul || Value.any_has_nul items

def Map.has_nul : List (String × Value) → Bool
  | [] => false
  | (key, value) :: entries => text_has_nul key || value.has_nul || Map.has_nul entries

end

/-! ### The definition of a form -/

inductive FieldType where
  | text
  | textarea
  | email
  | number
  | date
  | select
  | checkbox
  | file
  deriving DecidableEq, Repr

/-- One question on a form. -/
structure FieldDefinition where
  key : String
  field_type : FieldType
  label : String
  required : Bool
  help : Option String
  placeholder : Option String
  min_length : Option ℕ
  max_length : Option ℕ
  min : Option ℚ
  max : Option ℚ
  /-- Required for `select`. -/
  options : Option (List String)
  /-- `file` only: the largest object the upload endpoint will take. -/
  max_bytes : Option ℕ
  /-- `file` only: permitted content types. -/
  accept : Option (List String)
  deriving DecidableEq, Repr

structure FormSchema where
  title : String
  description : Option String
  submit_label : Option String
  fields : List FieldDefinition
  deriving DecidableEq, Repr

namespace FormSchema

def field (schema : FormSchema) (key : String) : Option FieldDefinition :=
  schema.fields.find? fun f => f.key == key

def has_file_field (schema : FormSchema) : Bool :=
  schema.fields.any fun f => f.field_type == .file

end FormSchema

inductive FormStatus where
  | draft
  | published
  | closed
  deriving DecidableEq, Repr

def FormStatus.accepts_submissions (status : FormStatus) : Bool := status == .published

inductive SubmissionStatus where
  | unread
  | read
  | spam
  | archived
  deriving DecidableEq, Repr

/-- Its name in JSON. -/
def SubmissionStatus.as_str : SubmissionStatus → String
  | .unread => "unread"
  | .read => "read"
  | .spam => "spam"
  | .archived => "archived"

/-! ### Rows -/

/-- A row of `forms`. -/
structure FormRecord where
  id : Uuid
  organization_id : Uuid
  name : String
  status : FormStatus
  public_id : String
  schema : FormSchema
  schema_version : ℕ
  notify_emails : List String
  success_message : Option String
  redirect_url : Option String
  honeypot_enabled : Bool
  created_at : Timestamp
  published_at : Option Timestamp
  closed_at : Option Timestamp
  deriving DecidableEq, Repr

/-- What `submissions.files` records of one attachment: the object that
`FileUploadRecord::metadata` renders. -/
structure FileMetadata where
  key : String
  filename : String
  content_type : String
  size : ℕ
  deriving DecidableEq, Repr

/-- A row of `submissions`. -/
structure SubmissionRecord where
  id : Uuid
  organization_id : Uuid
  form_id : Uuid
  schema_version : ℕ
  data : Map
  /-- Per field key. -/
  files : List (String × FileMetadata)
  status : SubmissionStatus
  ip_address : Option String
  user_agent : Option String
  referer : Option String
  created_at : Timestamp

/-- A row of `file_uploads`: the ledger of what has been put in the bucket. -/
structure FileUploadRecord where
  id : Uuid
  organization_id : Uuid
  form_id : Uuid
  field_key : String
  object_key : String
  filename : String
  content_type : String
  size_bytes : ℕ
  /-- Set when a submission claims this upload, and back to null when it is deleted. -/
  submission_id : Option Uuid
  created_at : Timestamp
  deriving DecidableEq, Repr

/-- What `SubmissionRepository::insert` is asked to store. -/
structure NewSubmission where
  organization_id : Uuid
  form_id : Uuid
  schema_version : ℕ
  data : Map
  files : Option (List (String × FileMetadata))
  status : SubmissionStatus
  ip_address : Option String
  user_agent : Option String
  referer : Option String
  notify : Bool

/-- What `FileUploadRepository::insert` is asked to store. -/
structure NewFileUpload where
  organization_id : Uuid
  form_id : Uuid
  field_key : String
  object_key : String
  filename : String
  content_type : String
  size_bytes : ℕ

/-- What the submission is handed about the upload. -/
def FileUploadRecord.metadata (u : FileUploadRecord) : FileMetadata where
  key := u.object_key
  filename := u.filename
  content_type := u.content_type
  size := u.size_bytes

end SubmitSnap
