import SubmitSnap.Form.Model
import SubmitSnap.Text.Csv

/-!
# CSV and JSON encoding for the export

A submission is one record of a CSV file or one element of a JSON array. Cells are quoted only when
they have to be, which is what the reader of `Csv` expects, so a file is read back cell by cell.

What stands in the file is said without the functions that write it: `answer_text` is what a cell is
to say of an answer, and `JsonElement` what is to be found under the keys of an element. That the
code writes just that is `cell_eq` and `jsonElement_object`.

## Main definitions

* `csv_header`, `csv_row`, `json_row` — the pieces an export is made of.
* `answer_text`, `JsonElement` — what is to be read in them.

## Main results

* `parse_csv_export` — an exported file is read back cell by cell.
* `batch_text_json` — the rows, in their brackets, are the elements of one array.
-/

namespace SubmitSnap

/-! ### JSON text -/

/-- The lower-case hexadecimal digit of a number below 16. -/
def hex_digit (n : ℕ) : Char := if n < 10 then Char.ofNat (48 + n) else Char.ofNat (87 + n)

/-- How a character stands in a JSON string. -/
def json_char (c : Char) : List Char :=
  if c = '"' then ['\\', '"']
  else if c = '\\' then ['\\', '\\']
  else if c.toNat = 8 then ['\\', 'b']
  else if c = '\t' then ['\\', 't']
  else if c = '\n' then ['\\', 'n']
  else if c.toNat = 12 then ['\\', 'f']
  else if c = '\r' then ['\\', 'r']
  else if c.toNat < 32 then
    ['\\', 'u', '0', '0', hex_digit (c.toNat / 16), hex_digit (c.toNat % 16)]
  else [c]

def json_string (s : String) : String := "\"" ++ String.ofList (s.toList.flatMap json_char) ++ "\""

mutual

/-- `serde_json::Value::to_string`: the compact form. -/
def Value.to_json (P : Platform) : Value → String
  | .null => "null"
  | .bool b => if b then "true" else "false"
  | .number n => P.json_number n
  | .string s => json_string s
  | .array [] => "[]"
  | .array (item :: items) => "[" ++ item.to_json P ++ Value.more_json P items ++ "]"
  | .object [] => "{}"
  | .object ((key, value) :: entries) =>
    "\x7b" ++ json_string key ++ ":" ++ value.to_json P ++ Map.more_json P entries ++ "\x7d"

/-- The elements of an array after the first. -/
def Value.more_json (P : Platform) : List Value → String
  | [] => ""
  | item :: items => "," ++ item.to_json P ++ Value.more_json P items

/-- The entries of an object after the first. -/
def Map.more_json (P : Platform) : List (String × Value) → String
  | [] => ""
  | (key, value) :: entries =>
    "," ++ json_string key ++ ":" ++ value.to_json P ++ Map.more_json P entries

end

/-! ### Rows -/

/-- Renders one answer as a cell. Structured answers keep their JSON form. -/
def render (P : Platform) : Value → String
  | .null => ""
  | .string text => text
  | .bool flag => if flag then "true" else "false"
  | .number number => P.json_number number
  | other => other.to_json P

/-- RFC 4180 quoting. -/
def escape (value : String) : String :=
  if value.toList.any fun c => c = ',' || c = '"' || c = '\n' || c = '\r' then
    "\"" ++ String.ofList
      (value.toList.flatMap fun c => if c = '"' then ['"', '"'] else [c]) ++ "\""
  else value

/-- The answer to one column. -/
def cell (P : Platform) (submission : SubmissionRecord) (column : String) : String :=
  ((submission.data.get column).map (render P)).getD ""

/-- One line of CSV, terminated so rows can be concatenated without a separator. -/
def csv_row (P : Platform) (columns : List String) (submission : SubmissionRecord) : String :=
  let fields := columns.map fun column => escape (cell P submission column)
  let line := escape (P.display_uuid submission.id) ++ "," ++
    escape (P.to_rfc3339 submission.created_at) ++ "," ++ escape submission.status.as_str
  fields.foldl (fun line field => line ++ "," ++ field) line ++ "\n"

def csv_header (columns : List String) : String :=
  columns.foldl (fun header column => header ++ "," ++ escape column) "id,created_at,status" ++ "\n"

/-- The object of a submission, in key order. -/
def json_object (P : Platform) (submission : SubmissionRecord) : Value :=
  .object [
    ("created_at", .string (P.json_time submission.created_at)),
    ("data", .object submission.data),
    ("id", .string (P.display_uuid submission.id)),
    ("status", .string submission.status.as_str)]

def json_row (P : Platform) (submission : SubmissionRecord) (separator : String) : String :=
  separator ++ (json_object P submission).to_json P

inductive ExportFormat where
  | csv
  | json
  deriving DecidableEq, Repr

/-- The form's current fields, then any other key. -/
def export_columns (form : FormRecord) (keys : List String) : List String :=
  keys.foldl (fun columns key => if key ∈ columns then columns else columns ++ [key])
    (form.schema.fields.map (·.key))

def opening (format : ExportFormat) (columns : List String) : String :=
  match format with
  | .csv => csv_header columns
  | .json => "["

def closing (format : ExportFormat) : List (Except Failure String) :=
  if format = .json then [.ok "]"] else []

/-- One row, after the separator it needs. -/
def row_text (P : Platform) (format : ExportFormat) (columns : List String)
    (submission : SubmissionRecord) (first_row : Bool) : String :=
  match format with
  | .csv => csv_row P columns submission
  | .json => json_row P submission (if first_row then "" else ",")

/-- The text of one batch, and whether the next row will be the first one. -/
def batch_text (P : Platform) (format : ExportFormat) (columns : List String)
    (batch : List SubmissionRecord) (first_row : Bool) : String × Bool :=
  batch.foldl (fun (text, first_row) submission =>
    (text ++ row_text P format columns submission first_row, false)) ("", first_row)

/-! ### Batches

The rows are rendered batch by batch, and the flag that says whether the next row is the first one
is handed on. Cutting the list in another place gives the same text, so all that has to be said of
an export can be said of one batch with all rows. -/

section Batches

variable {P : Platform} {format : ExportFormat} {columns : List String} {row : SubmissionRecord}
  {rows rows' : List SubmissionRecord} {first_row : Bool}

theorem batch_text_foldl {text : String} :
    rows.foldl (fun (text, first_row) submission =>
      (text ++ row_text P format columns submission first_row, false)) (text, first_row) =
      (text ++ (batch_text P format columns rows first_row).1,
        (batch_text P format columns rows first_row).2) := by
  induction rows generalizing text first_row with
  | nil => simp [batch_text]
  | cons row rows ih =>
    rw [batch_text, List.foldl_cons, List.foldl_cons, ih, ih, String.empty_append,
      String.append_assoc]

theorem batch_text_cons : batch_text P format columns (row :: rows) first_row =
    (row_text P format columns row first_row ++ (batch_text P format columns rows false).1,
      (batch_text P format columns rows false).2) := by
  rw [batch_text, List.foldl_cons, batch_text_foldl, String.empty_append]

/-- Batch after batch is all rows at once, however they are cut. -/
theorem batch_text_append : batch_text P format columns (rows ++ rows') first_row =
    ((batch_text P format columns rows first_row).1 ++ (batch_text P format columns rows'
      (batch_text P format columns rows first_row).2).1,
      (batch_text P format columns rows' (batch_text P format columns rows first_row).2).2) := by
  rw [batch_text, List.foldl_append]
  exact batch_text_foldl

theorem batch_text_csv : (batch_text P .csv columns rows first_row).1 =
    String.join (rows.map (csv_row P columns)) := by
  induction rows generalizing first_row with
  | nil => rfl
  | cons row rows ih =>
    rw [batch_text_cons, List.map_cons, String.join_cons, ih]
    rfl

theorem batch_text_more_json : (batch_text P .json columns rows false).1 =
    Value.more_json P (rows.map (json_object P)) := by
  induction rows with
  | nil => rfl
  | cons row rows ih =>
    rw [batch_text_cons, ih, List.map_cons, Value.more_json]
    rfl

/-- **The separators are right**: with its brackets, the text of the rows is that of an array. -/
theorem batch_text_json : "[" ++ (batch_text P .json columns rows true).1 ++ "]" =
    (Value.array (rows.map (json_object P))).to_json P := by
  cases rows with
  | nil => rfl
  | cons row rows =>
    rw [batch_text_cons, batch_text_more_json, List.map_cons, Value.to_json, ← String.append_assoc]
    simp only [row_text, json_row, if_true, String.empty_append]

end Batches

/-! ### What an element says -/

/-- What stands under a key of an object. -/
def Value.entry : Value → String → Option Value
  | .object entries, key => Map.get entries key
  | _, _ => none

/-- The element of an array that stands for a submission: its id, its time, its status and the data
that are stored, each under its name. -/
structure JsonElement (P : Platform) (submission : SubmissionRecord) (element : Value) : Prop where
  id : element.entry "id" = some (.string (P.display_uuid submission.id))
  created_at : element.entry "created_at" = some (.string (P.json_time submission.created_at))
  status : element.entry "status" = some (.string submission.status.as_str)
  data : element.entry "data" = some (.object submission.data)

theorem jsonElement_object (P : Platform) (submission : SubmissionRecord) :
    JsonElement P submission (json_object P submission) := ⟨rfl, rfl, rfl, rfl⟩

/-! ### Reading a CSV file

What is written is read back with the reader of `Csv`, which knows nothing of submissions. The
cells are then compared with `answer_text`, which says what a cell is to be without saying how it
is made. -/

section Csv

variable {P : Platform} {columns : List String} {value : String}

/-- The records of a text. -/
def parse_csv (text : String) : Option (List (List String)) :=
  (Csv.parse text.toList).map fun records => records.map fun record => record.map String.ofList

/-- What a cell is to say of an answer: nothing if there is none, a text as it is, and anything else
as JSON. -/
def answer_text (P : Platform) : Option Value → String
  | none | some .null => ""
  | some (.string text) => text
  | some value => value.to_json P

/-- The cells of a submission's record. -/
def csv_cells (P : Platform) (columns : List String) (submission : SubmissionRecord) :
    List String :=
  [P.display_uuid submission.id, P.to_rfc3339 submission.created_at, submission.status.as_str] ++
    columns.map fun column => answer_text P (submission.data.get column)

/-- The code spells out what is as it is in JSON anyway. -/
theorem cell_eq {submission : SubmissionRecord} {column : String} :
    cell P submission column = answer_text P (submission.data.get column) := by
  unfold cell
  cases submission.data.get column with
  | none => rfl
  | some value => cases value <;> rfl

theorem toList_escape : (escape value).toList = Csv.quote value.toList := by
  unfold escape Csv.quote
  have hany : (value.toList.any fun c => c = ',' || c = '"' || c = '\n' || c = '\r') =
      value.toList.any Csv.special := rfl
  rw [hany]
  split
  · simp only [String.toList_append, String.toList_ofList]
    rfl
  · rfl

/-- Appending fields one by one. -/
theorem toList_foldl_fields {line : String} {fields : List String} :
    (fields.foldl (fun line field => line ++ "," ++ field) line).toList =
      line.toList ++ fields.flatMap fun field => ',' :: field.toList := by
  induction fields generalizing line with
  | nil => rw [List.foldl_nil, List.flatMap_nil, List.append_nil]
  | cons field fields ih =>
    rw [List.foldl_cons, ih, List.flatMap_cons, String.toList_append, String.toList_append,
      List.append_assoc, List.append_assoc]
    rfl

/-- The cells of a record after those every record has. -/
theorem flatMap_escape {cells : List String} :
    ((cells.map escape).flatMap fun field => ',' :: field.toList) =
      (cells.map String.toList).flatMap fun cell => ',' :: Csv.quote cell := by
  rw [List.flatMap_map, List.flatMap_map]
  exact List.flatMap_congr fun cell _ => by rw [toList_escape]

theorem toList_csv_header : (csv_header columns).toList =
    Csv.printRecord (("id" :: "created_at" :: "status" :: columns).map String.toList) := by
  have hfold : columns.foldl (fun header column => header ++ "," ++ escape column)
      "id,created_at,status" = (columns.map escape).foldl (fun line field => line ++ "," ++ field)
      "id,created_at,status" := List.foldl_map.symm
  rw [csv_header, hfold, String.toList_append, toList_foldl_fields, flatMap_escape]
  rfl

theorem toList_csv_row {submission : SubmissionRecord} : (csv_row P columns submission).toList =
    Csv.printRecord ((csv_cells P columns submission).map String.toList) := by
  have hfields : (columns.map fun column => escape (cell P submission column)) =
      (columns.map fun column => answer_text P (submission.data.get column)).map escape := by
    rw [List.map_map]
    exact List.map_congr_left fun column _ => congrArg escape cell_eq
  unfold csv_row csv_cells
  dsimp only
  rw [hfields, String.toList_append, toList_foldl_fields, flatMap_escape]
  simp only [String.toList_append, toList_escape, List.append_assoc, List.map_cons,
    Csv.printRecord, List.flatMap_cons, List.cons_append]
  rfl

end Csv

/-- **Reading an exported file**: one record of column names, then one of cells for each
submission. -/
theorem parse_csv_export (P : Platform) (columns : List String)
    (submissions : List SubmissionRecord) :
    parse_csv (csv_header columns ++ String.join (submissions.map (csv_row P columns))) =
      some ((["id", "created_at", "status"] ++ columns) :: submissions.map fun submission =>
        [P.display_uuid submission.id, P.to_rfc3339 submission.created_at,
          submission.status.as_str] ++
          columns.map fun column => answer_text P (submission.data.get column)) ∧
      ∀ records,
        parse_csv (csv_header columns ++ String.join (submissions.map (csv_row P columns))) =
          some records → records.length = 1 + submissions.length ∧
            ∀ record ∈ records, record.length = 3 + columns.length := by
  have hparse : parse_csv (csv_header columns ++
      String.join (submissions.map (csv_row P columns))) =
      some (("id" :: "created_at" :: "status" :: columns) ::
        submissions.map (csv_cells P columns)) := by
    let records := ("id" :: "created_at" :: "status" :: columns) ::
      submissions.map (csv_cells P columns)
    have htext : (csv_header columns ++ String.join (submissions.map (csv_row P columns))).toList =
        Csv.print (records.map fun record => record.map String.toList) := by
      rw [String.toList_append, String.toList_join, toList_csv_header, List.flatMap_map]
      change _ = Csv.printRecord _ ++ ((submissions.map (csv_cells P columns)).map _).flatMap
        Csv.printRecord
      rw [List.map_map, List.flatMap_map]
      exact congrArg _ (List.flatMap_congr fun submission _ => toList_csv_row)
    have hnonempty : ∀ record ∈ records.map (fun record => record.map String.toList),
        record ≠ [] := by
      intro record hrecord hnil
      obtain ⟨cells, hcells, rfl⟩ := List.mem_map.mp hrecord
      rcases List.mem_cons.mp hcells with rfl | hcells
      · cases hnil
      · obtain ⟨submission, -, rfl⟩ := List.mem_map.mp hcells
        cases hnil
    rw [parse_csv, htext, Csv.parse_print hnonempty, Option.map_some, List.map_map]
    refine congrArg some ((List.map_congr_left fun record _ => ?_).trans (List.map_id _))
    change (record.map String.toList).map String.ofList = record
    rw [List.map_map]
    exact (List.map_congr_left fun s _ => String.ofList_toList).trans (List.map_id _)
  refine ⟨hparse, fun records hrecords => ?_⟩
  obtain rfl := Option.some.inj (hparse.symm.trans hrecords)
  refine ⟨by rw [List.length_cons, List.length_map, Nat.add_comm], fun record hrecord => ?_⟩
  rcases List.mem_cons.mp hrecord with rfl | hrecord
  · exact Nat.add_comm columns.length 3
  · obtain ⟨submission, -, rfl⟩ := List.mem_map.mp hrecord
    rw [csv_cells, List.length_append, List.length_map]
    rfl

end SubmitSnap
