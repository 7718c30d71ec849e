import SubmitSnap.Statement
import SubmitSnap.Form.Validation

/-!
# Uploads: media types, file names, and the bytes on their way into storage

A request body is the list of chunks the transport yields, each of which may be an error instead.
What has been written of an object is no object yet; only completing the write makes it one.
-/

namespace SubmitSnap

open Interleave
open Interleave.Script (ret when mapError result)

inductive FormError where
  | not_found
  | forbidden
  | invalid_schema (message : String)
  | invalid_submission (message : String)
  | closed
  | file_uploads_unavailable
  | file_rejected (message : String)
  | file_too_large (limit : ℕ)
  | file_missing
  | too_many_submissions
  | internal (cause : Failure)
  deriving DecidableEq, Repr

instance : Raises Failure FormError := ⟨.internal⟩

/-! ### Media types -/

inductive Sniffed where
  | png
  | jpeg
  | gif
  | webp
  | pdf
  | zip
  | gzip
  | unknown
  deriving DecidableEq, Repr

/-- What the leading bytes of a file say it is. -/
def sniff (head : List ℕ) : Sniffed :=
  if [0x89, 0x50, 0x4e, 0x47, 0x0d, 0x0a, 0x1a, 0x0a].isPrefixOf head then .png
  else if [0xff, 0xd8, 0xff].isPrefixOf head then .jpeg
  else if [0x47, 0x49, 0x46, 0x38, 0x37, 0x61].isPrefixOf head ||
      [0x47, 0x49, 0x46, 0x38, 0x39, 0x61].isPrefixOf head then .gif
  else if [0x52, 0x49, 0x46, 0x46].isPrefixOf head &&
      (head.drop 8).take 4 == [0x57, 0x45, 0x42, 0x50] then .webp
  else if [0x25, 0x50, 0x44, 0x46, 0x2d].isPrefixOf head then .pdf
  else if [0x50, 0x4b, 0x03, 0x04].isPrefixOf head then .zip
  else if [0x1f, 0x8b].isPrefixOf head then .gzip
  else .unknown

/-- How many leading bytes are inspected. -/
def SUGGESTED_HEAD_BYTES : ℕ := 16

def to_ascii_lowercase (s : String) : String := String.ofList (s.toList.map Char.toLower)

/-- The part of a string before the first `sep`. -/
def before (sep : Char) (s : String) : String := String.ofList (s.toList.takeWhile (· != sep))

/-- Lower-cases a declared media type and drops any parameters. -/
def normalise_content_type (raw : Option String) : Option String := do
  let raw := trim (before ';' (← raw))
  if raw.isEmpty then none else some (to_ascii_lowercase raw)

def Sniffed.is_consistent_with (sniffed : Sniffed) (declared : String) : Bool :=
  let declared := to_ascii_lowercase (trim (before ';' declared))
  match sniffed with
  | .unknown => true
  | .png => declared == "image/png"
  | .jpeg => declared == "image/jpeg"
  | .gif => declared == "image/gif"
  | .webp => declared == "image/webp"
  | .pdf => declared == "application/pdf"
  | .gzip => declared == "application/gzip" || declared == "application/x-gzip"
  | .zip => declared == "application/zip" ||
      starts_with declared "application/vnd.openxmlformats-officedocument." ||
      starts_with declared "application/vnd.oasis.opendocument."

/-- Compares one `accept` entry with a media type, honouring the `image/*` wildcard. -/
def media_type_matches (allowed content_type : String) : Bool :=
  let allowed := to_ascii_lowercase (trim allowed)
  if allowed.toList.dropWhile (· != '/') = ['/', '*'] then
    before '/' content_type == before '/' allowed
  else allowed == content_type

/-- Whether this field accepts a media type. -/
def FieldDefinition.accepts (field : FieldDefinition) (content_type : String) : Bool :=
  match field.accept with
  | none => true
  | some accept => accept.any fun allowed => media_type_matches allowed content_type

/-- The declared type has to be one the field accepts. -/
def check_declared_type (field : FieldDefinition) : Option String → Except FormError String
  | none => .error (.file_rejected
      "a Content-Type header is required so the file can be checked against the field")
  | some declared =>
    if field.accepts declared then .ok declared
    else .error (.file_rejected (field.key ++ " does not accept " ++ declared))

/-- Refuses bytes that contradict the media type the client declared. -/
def check_bytes (head : List ℕ) : Option String → Except FormError Unit
  | none => .ok ()
  | some declared =>
    if (sniff head).is_consistent_with declared then .ok ()
    else .error (.file_rejected ("the contents do not look like " ++ declared))

/-! ### File names -/

/-- The Unicode `Cc` category. -/
def is_control (c : Char) : Bool := c.toNat < 0x20 || (0x7f ≤ c.toNat && c.toNat < 0xa0)

/-- The part of a string after its last `/` or `\`. -/
def basename (s : String) : String :=
  String.ofList (s.toList.reverse.takeWhile fun c => c != '/' && c != '\\').reverse

/-- A filename for showing to a human: single-line, free of path structure, and short. -/
def clean_filename (raw : Option String) : String :=
  let base := trim (basename (raw.getD ""))
  let cleaned := String.ofList ((base.toList.filter fun c => !is_control c).take 200)
  if cleaned.isEmpty then "file" else cleaned

/-! ### The stream -/

/-- One item of a request body: a chunk of bytes, or a transport error. -/
abbrev Chunk : Type := Except Failure (List ℕ)

/-- What the loop over the body keeps: how much has been written, the leading bytes, and whether
they have been inspected. -/
structure StreamState where
  written : ℕ
  head : List ℕ
  inspected : Bool
  deriving DecidableEq

namespace FormService

/-- `?` on a pure check. -/
def require {α : Type} : Except FormError α → Code FormError α
  | .ok a => ret a
  | .error e => throw e

end FormService

namespace UploadWriter

variable (key : String)

/-- Accepts the next chunk, or refuses once the running total has passed the limit. The new running
total. -/
def write (limit written : ℕ) (chunk : List ℕ) : Code FormError ℕ := do
  let total := written + chunk.length
  if limit < total then throw (.file_too_large limit)
  else do
    ask (.write_part key chunk)
    return total

/-- What the store's client does about a write it cannot finish. -/
def give_up (e : Failure) : Code FormError Unit := do
  ask (.abort_upload key)
  throw (.internal e)

/-- Completes the write. The client gives it up by itself when the completion fails; whether it does
so when a part does not arrive is up to the client. -/
def finish (P : Platform) : Code FormError Unit := do
  match ← attempt (.flush_parts key) with
  | .error e => if P.aborts_failed_flush then give_up key e else throw (.internal e)
  | .ok () =>
    match ← attempt (.put_object key) with
    | .ok () => return ()
    | .error e => give_up key e

end UploadWriter

/-- One chunk: the leading bytes are collected, the chunk is written, and the leading bytes are
inspected as soon as there are enough of them. -/
def stream_chunk (key : String) (declared : Option String) (limit : ℕ) (st : StreamState) :
    Chunk → Code FormError StreamState
  | .error e =>
    -- The transport's own limit should not be what fires first.
    if limit ≤ st.written then throw (.file_too_large limit) else throw (.internal e)
  | .ok chunk => do
    let head := st.head ++ chunk.take (SUGGESTED_HEAD_BYTES - st.head.length)
    let total ← UploadWriter.write key limit st.written chunk
    if !st.inspected && SUGGESTED_HEAD_BYTES ≤ head.length then do
      FormService.require (check_bytes head declared)
      return ⟨total, head, true⟩
    else return ⟨total, head, st.inspected⟩

/-- Pumps the request body into storage, checking the size and the leading bytes as they arrive.
The number of bytes written. -/
def stream_upload (key : String) (declared : Option String) (limit : ℕ) :
    List Chunk → StreamState → Code FormError ℕ
  | [], st => do
    when (!st.inspected) (FormService.require (check_bytes st.head declared))
    return st.written
  | chunk :: body, st => do
    let st ← stream_chunk key declared limit st chunk
    stream_upload key declared limit body st

end SubmitSnap
