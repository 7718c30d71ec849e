import SubmitSnap.Form.Model

/-!
# The form definition contract and the payload validation built on it

Both validators report every problem they find rather than the first, in the order the source
pushes them.
-/

namespace SubmitSnap

/-- Keys beginning with this are reserved for client-side helpers, and are never stored. -/
def RESERVED_PREFIX : String := "_"

/-- The field the honeypot uses. -/
def HONEYPOT_FIELD : String := "_gotcha"

def MAX_FIELDS : ℕ := 50
def MAX_KEY_LENGTH : ℕ := 64
def MAX_OPTIONS : ℕ := 100
def MAX_LABEL_LENGTH : ℕ := 200
def MAX_TEXT_LENGTH : ℕ := 10000

def is_ascii_lowercase (c : Char) : Bool := 'a' ≤ c && c ≤ 'z'

def is_ascii_digit (c : Char) : Bool := '0' ≤ c && c ≤ '9'

def is_valid_key (key : String) : Bool :=
  key.utf8ByteSize ≤ MAX_KEY_LENGTH &&
    match key.toList with
    | [] => false
    | first :: rest =>
      is_ascii_lowercase first &&
        rest.all fun c => is_ascii_lowercase c || is_ascii_digit c || c == '_'

/-- The problem `p`, if `c`. -/
def problem (c : Bool) (p : String) : List String := if c then [p] else []

/-- Whether a lower bound exceeds an upper one, where both are given. -/
def exceeds {α : Type} [LT α] [DecidableLT α] (lo hi : Option α) : Bool :=
  match lo, hi with
  | some lo, some hi => hi < lo
  | _, _ => false

def validate_field_rules (P : Platform) (field : FieldDefinition) (named : String) : List String :=
  problem (exceeds field.min_length field.max_length)
    (named ++ ": min_length is greater than max_length") ++
  problem (exceeds (field.min.map P.as_f64) (field.max.map P.as_f64))
    (named ++ ": min is greater than max") ++
  (match field.field_type with
    | .select =>
      match field.options with
      | some [] => [named ++ ": a select needs at least one option"]
      | some options =>
        problem (MAX_OPTIONS < options.length)
          (named ++ ": a select may have at most " ++ toString MAX_OPTIONS ++ " options")
      | none => [named ++ ": a select needs options"]
    | .file =>
      problem (field.max_bytes == some 0) (named ++ ": max_bytes must be greater than zero")
    | _ =>
      problem field.options.isSome (named ++ ": options only apply to a select field")) ++
  problem (field.field_type != .number && (field.min.isSome || field.max.isSome))
    (named ++ ": min and max only apply to a number field")

/-- The problems of one field, given the keys of the fields before it. -/
def validate_field (P : Platform) (seen : List String) (field : FieldDefinition) : List String :=
  let named := "field " ++ P.debug_str field.key
  problem (!is_valid_key field.key)
    (named ++ ": key must start with a lowercase letter and contain only lowercase " ++
      "letters, digits, and underscores, up to " ++ toString MAX_KEY_LENGTH ++ " characters") ++
  problem (field.key ∈ seen) (named ++ ": key is used more than once") ++
  problem (starts_with field.key RESERVED_PREFIX)
    (named ++ ": keys starting with " ++ RESERVED_PREFIX ++ " are reserved") ++
  problem ((trim field.label).isEmpty || MAX_LABEL_LENGTH < field.label.length)
    (named ++ ": label must be between 1 and " ++ toString MAX_LABEL_LENGTH ++ " characters") ++
  validate_field_rules P field named

def validate_fields (P : Platform) : List String → List FieldDefinition → List String
  | _, [] => []
  | seen, field :: fields =>
    validate_field P seen field ++ validate_fields P (field.key :: seen) fields

/-- Checks a stored definition. -/
def validate_schema (P : Platform) (schema : FormSchema) : Except (List String) Unit :=
  let problems :=
    problem (trim schema.title).isEmpty "title must not be empty" ++
    problem schema.fields.isEmpty "a form needs at least one field" ++
    problem (MAX_FIELDS < schema.fields.length)
      ("a form may have at most " ++ toString MAX_FIELDS ++ " fields") ++
    validate_fields P [] schema.fields
  if problems.isEmpty then .ok () else .error problems

/-! ### Payloads -/

def is_absent : Option Value → Bool
  | none | some .null => true
  | some (.string text) => (trim text).isEmpty
  | some _ => false

/-- `text.chars().count() as u32`. -/
def char_count (text : String) : ℕ := text.length % 2 ^ 32

/-- The value to store, if it is acceptable enough to go on, and the problems found. -/
def check_value (P : Platform) (field : FieldDefinition) (value : Value) :
    Option Value × List String :=
  let key := field.key
  match value with
  | .null => (none, problem field.required (key ++ " is required"))
  | value =>
    match field.field_type, value with
    | .text, .string text | .textarea, .string text | .email, .string text =>
      if field.required && (trim text).isEmpty then (none, [key ++ " is required"])
      else
        let max := field.max_length.getD MAX_TEXT_LENGTH
        (some value,
          (match field.min_length with
            | some min =>
              problem (char_count text < min)
                (key ++ " must be at least " ++ toString min ++ " characters")
            | none => []) ++
          problem (max < char_count text)
            (key ++ " must be at most " ++ toString max ++ " characters") ++
          problem (field.field_type == .email && !P.validate_email text)
            (key ++ " must be a valid email address"))
    | .text, _ | .textarea, _ | .email, _ => (none, [key ++ " must be a string"])
    | .number, .number n =>
      let number := P.as_f64 n.value
      (some value,
        (match field.min with
          | some min =>
            problem (number < P.as_f64 min) (key ++ " must be at least " ++ P.display_number min)
          | none => []) ++
        (match field.max with
          | some max =>
            problem (P.as_f64 max < number) (key ++ " must be at most " ++ P.display_number max)
          | none => []))
    | .number, _ => (none, [key ++ " must be a number"])
    | .date, .string text =>
      if P.is_date text then (some value, [])
      else (none, [key ++ " must be a date in YYYY-MM-DD form"])
    | .date, _ => (none, [key ++ " must be a date in YYYY-MM-DD form"])
    | .select, .string text =>
      (some value,
        problem (!(field.options.getD []).contains text)
          (key ++ " must be one of the listed options"))
    | .select, _ => (none, [key ++ " must be one of the listed options"])
    | .checkbox, .bool _ => (some value, [])
    | .checkbox, _ => (none, [key ++ " must be true or false"])
    | .file, .string text =>
      if (trim text).isEmpty then (none, [key ++ " must not be empty"]) else (some value, [])
    | .file, _ => (none, [key ++ " must be an uploaded file reference"])

/-- One entry of the payload: the answer it contributes, and the problems. -/
def check_entry (P : Platform) (schema : FormSchema) (entry : String × Value) :
    Map × List String :=
  if starts_with entry.1 RESERVED_PREFIX then ([], [])
  else
    match schema.field entry.1 with
    | none => ([], [P.debug_str entry.1 ++ " is not a field on this form"])
    | some field =>
      let (accepted, problems) := check_value P field entry.2
      (accepted.toList.map fun value => (entry.1, value), problems)

/-- Validates a payload against the definition and returns the answers to store. -/
def validate_submission (P : Platform) (schema : FormSchema) (payload : Map) :
    Except (List String) Map :=
  let checked := payload.map (check_entry P schema)
  let problems := checked.flatMap (·.2) ++
    schema.fields.flatMap fun field =>
      problem (field.required && is_absent (payload.get field.key)) (field.key ++ " is required")
  if problems.isEmpty then .ok (checked.flatMap (·.1)) else .error problems

end SubmitSnap
