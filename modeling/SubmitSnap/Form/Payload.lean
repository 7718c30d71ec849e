import SubmitSnap.Form.Submittable

/-!
# Which payloads are accepted

The validator walks over the payload, where it judges each entry by the field of its key, and then
over the fields, where it asks whether the required ones are answered. `PayloadFits` says the same
thing without an order: every entry is declared and acceptable, and every required field answered.

Counting characters in 32 bits is harmless for texts shorter than that, so the theorem asks for such
texts. The keys of a JSON object are distinct, which keeps the two passes from looking at different
answers to one field.

Numbers are compared as the code compares them, after both have been converted to `f64`. The
conversion is a parameter: the theorem does not depend on which numbers it takes for the same.

## The argument

For one value there is `check_value_iff`: no problem is reported if and only if the value is
accepted. The case split is by the type of the field, and within it by the type of the value. A
payload without problems has none in any entry and none among the required fields, and each of the
two passes turns into one clause of `PayloadFits` (`noProblems_iff`). That the problems cover
everything which is wrong goes the other way, entry by entry: each entry that does not fit
contributes a problem of its own, and problems of different entries are only ever appended.

## Main results

* `check_value_iff` — one answer, against one field.
* `validate_submission_correct` — what is accepted, what is stored, and what is reported.
-/

namespace SubmitSnap

/-- `Value::is_null`. -/
def Value.is_null : Value → Bool
  | .null => true
  | _ => false

/-- The value is of the right type for the field, and within its rules. -/
def FieldDefinition.Accepts (P : Platform) (field : FieldDefinition) (value : Value) : Prop :=
  match field.field_type, value with
  | .text, .string text | .textarea, .string text => field.Fits text.length
  | .email, .string text => field.Fits text.length ∧ P.validate_email text = true
  | .number, .number number =>
    (∀ min ∈ field.min, P.as_f64 min ≤ P.as_f64 number.value) ∧
      ∀ max ∈ field.max, P.as_f64 number.value ≤ P.as_f64 max
  | .date, .string text => P.is_date text = true
  | .select, .string text => text ∈ field.options.getD []
  | .checkbox, .bool _ => True
  | .file, .string text => (trim text).isEmpty = false
  | _, _ => False

/-- The payload answers the field, with neither null nor a blank string. -/
def Answers (payload : Map) (field : FieldDefinition) : Prop :=
  ∃ value, payload.get field.key = some value ∧ value.is_null = false ∧
    ∀ text, value = .string text → (trim text).isEmpty = false

/-- A payload the definition accepts: every key that is not reserved is declared, with null or an
acceptable value, and every required field is answered. -/
structure PayloadFits (P : Platform) (schema : FormSchema) (payload : Map) : Prop where
  declared : ∀ entry ∈ payload, starts_with entry.1 RESERVED_PREFIX = false →
    ∃ field, schema.field entry.1 = some field ∧
      (entry.2.is_null = true ∨ field.Accepts P entry.2)
  complete : ∀ field ∈ schema.fields, field.required = true → Answers payload field

/-- The answers to store: the entries that are declared and not null, as they are. -/
def declaredAnswers (schema : FormSchema) (payload : Map) : Map :=
  payload.filter fun entry => (schema.field entry.1).isSome && !entry.2.is_null

/-- The problem is about the field with this key. -/
def Mentions (key problem : String) : Prop := ∃ rest, problem = key ++ rest

/-- The problems cover everything that is wrong with the payload. -/
structure ReportsAll (P : Platform) (schema : FormSchema) (payload : Map)
    (problems : List String) : Prop where
  nonempty : problems ≠ []
  undeclared : ∀ entry ∈ payload, starts_with entry.1 RESERVED_PREFIX = false →
    schema.field entry.1 = none → P.debug_str entry.1 ++ " is not a field on this form" ∈ problems
  unacceptable : ∀ entry ∈ payload, starts_with entry.1 RESERVED_PREFIX = false →
    ∀ field, schema.field entry.1 = some field → entry.2.is_null = false →
      ¬ field.Accepts P entry.2 → ∃ problem ∈ problems, Mentions entry.1 problem
  missing : ∀ field ∈ schema.fields, field.required = true → ¬ Answers payload field →
    ∃ problem ∈ problems, Mentions field.key problem

section Value

variable {P : Platform} {field : FieldDefinition} {value : Value}

/-- The texts whose characters a 32-bit counter can count. -/
def Countable (value : Value) : Prop := ∀ text, value = .string text → text.length < 2 ^ 32

theorem is_absent_iff {payload : Map} :
    is_absent (payload.get field.key) = false ↔ Answers payload field := by
  unfold Answers
  cases payload.get field.key with
  | none => simp [is_absent]
  | some value => cases value <;> simp [is_absent, Value.is_null]

theorem problem_eq_nil {c : Bool} {m : String} : problem c m = [] ↔ c = false := by
  cases c <;> simp [problem]

/-- The fields that are answered with a text and may not be left blank. -/
def FieldDefinition.IsText (field : FieldDefinition) : Prop :=
  field.field_type = .text ∨ field.field_type = .textarea ∨ field.field_type = .email

theorem accepts_text_iff (hfield : field.IsText) {text : String} :
    field.Accepts P (.string text) ↔ field.Fits text.length ∧
      (field.field_type = .email → P.validate_email text = true) := by
  unfold FieldDefinition.Accepts
  rcases hfield with h | h | h <;> simp [h]

/-- A text, against a field that asks for one. -/
theorem check_string_iff (hfield : field.IsText) {text : String} (hshort : text.length < 2 ^ 32) :
    (check_value P field (.string text)).2 = [] ↔ field.Accepts P (.string text) ∧
      (field.required = true → (trim text).isEmpty = false) := by
  have hcount : char_count text = text.length := Nat.mod_eq_of_lt hshort
  rw [accepts_text_iff hfield]
  by_cases hfine : field.required = true → (trim text).isEmpty = false
  · rw [check_text_iff hfield hfine, hcount, and_iff_left hfine]
  · have hblank : (field.required && (trim text).isEmpty) = true := by
      simpa using hfine
    have hproblem : (check_value P field (.string text)).2 = [field.key ++ " is required"] := by
      unfold check_value
      rcases hfield with h | h | h <;> rw [h] <;> dsimp only <;> rw [if_pos hblank]
    rw [hproblem]
    exact iff_of_false (List.cons_ne_nil _ _) fun h => hfine h.2

/-- **One answer, against one field**: no problem is found exactly if the value is acceptable, or
is a null that is not required; a text that is required is not blank, besides. -/
theorem check_value_iff (hshort : Countable value) :
    (check_value P field value).2 = [] ↔
      (value.is_null = true ∧ field.required = false) ∨
      (field.Accepts P value ∧ (field.IsText → field.required = true →
        is_absent (some value) = false)) := by
  cases value with
  | null =>
    have hreject : ¬ field.Accepts P .null := by
      unfold FieldDefinition.Accepts
      cases field.field_type <;> exact id
    simp [check_value, problem_eq_nil, Value.is_null, hreject]
  | string text =>
    have hnull : (Value.string text).is_null = false := rfl
    simp only [hnull, Bool.false_eq_true, false_and, false_or]
    cases h : field.field_type with
    | text | textarea | email =>
      have htext : field.IsText := by simp [FieldDefinition.IsText, h]
      rw [check_string_iff htext (hshort text rfl)]
      exact and_congr_right fun _ => ⟨fun hfine _ => hfine, fun hfine => hfine htext⟩
    | number | checkbox => simp [check_value, FieldDefinition.Accepts, h]
    | date =>
      by_cases hdate : P.is_date text = true <;>
        simp [check_value, FieldDefinition.Accepts, FieldDefinition.IsText, h, hdate]
    | select => simp [check_value, FieldDefinition.Accepts, FieldDefinition.IsText,
        problem_eq_nil, h]
    | file =>
      by_cases hblank : (trim text).isEmpty = true <;>
        simp [check_value, FieldDefinition.Accepts, FieldDefinition.IsText, h, hblank]
  | number n =>
    cases h : field.field_type with
    | number =>
      cases hmin : field.min <;> cases hmax : field.max <;>
        simp [check_value, FieldDefinition.Accepts, FieldDefinition.IsText, Value.is_null,
          problem_eq_nil, h, hmin, hmax]
    | _ => simp [check_value, FieldDefinition.Accepts, Value.is_null, h]
  | bool b =>
    cases h : field.field_type <;>
      simp [check_value, FieldDefinition.Accepts, FieldDefinition.IsText, Value.is_null, h]
  | array items =>
    cases h : field.field_type <;> simp [check_value, FieldDefinition.Accepts, Value.is_null, h]
  | object entries =>
    cases h : field.field_type <;> simp [check_value, FieldDefinition.Accepts, Value.is_null, h]

/-- A value that is not null is either stored as it is, or dropped with one problem. -/
theorem check_value_cases (P : Platform) (field : FieldDefinition) (value : Value) :
    value.is_null = true ∨
    (∃ m, check_value P field value = (none, [field.key ++ m])) ∨
    (check_value P field value).1 = some value := by
  unfold check_value
  cases value with
  | null => exact .inl rfl
  | string text =>
    cases field.field_type <;> dsimp only <;> (try split) <;>
      first | exact .inr (.inl ⟨_, rfl⟩) | exact .inr (.inr rfl)
  | _ =>
    cases field.field_type <;> first | exact .inr (.inl ⟨_, rfl⟩) | exact .inr (.inr rfl)

/-- A value without problems is stored as it is, unless it is null. -/
theorem check_value_stores (h : (check_value P field value).2 = []) :
    (check_value P field value).1 = if value.is_null then none else some value := by
  cases hnull : value.is_null with
  | true =>
    obtain rfl : value = .null := by cases value <;> first | rfl | cases hnull
    rfl
  | false =>
    rcases check_value_cases P field value with hnull' | ⟨m, hdropped⟩ | hstored
    · rw [hnull] at hnull'
      cases hnull'
    · rw [hdropped] at h
      cases h
    · rw [hstored]
      rfl

theorem mem_problem {c : Bool} {m p : String} : p ∈ problem c m ↔ c = true ∧ p = m := by
  cases c <;> simp [problem]

theorem Mentions.self (key rest : String) : Mentions key (key ++ rest) := ⟨rest, rfl⟩

theorem Mentions.append {key p : String} (h : Mentions key p) (more : String) :
    Mentions key (p ++ more) := by
  obtain ⟨rest, rfl⟩ := h
  exact ⟨rest ++ more, String.append_assoc⟩

/-- Every problem of a value is about its field. -/
theorem mentions_of_check_value {p : String} (h : p ∈ (check_value P field value).2) :
    Mentions field.key p := by
  have hself := Mentions.self field.key
  have hbound : ∀ a b c, Mentions field.key (field.key ++ a ++ b ++ c) :=
    fun a b c => ((hself a).append b).append c
  unfold check_value at h
  cases value with
  | null =>
    obtain ⟨-, rfl⟩ := mem_problem.mp h
    exact hself _
  | string text =>
    cases hfield : field.field_type <;> rw [hfield] at h <;> dsimp only at h
    case text | textarea | email =>
      split at h
      · rw [List.mem_singleton.mp h]
        exact hself _
      · simp only [List.mem_append, mem_problem] at h
        rcases h with (h | ⟨-, rfl⟩) | ⟨-, rfl⟩
        · split at h
          · obtain ⟨-, rfl⟩ := mem_problem.mp h
            exact hbound _ _ _
          · cases h
        · exact hbound _ _ _
        · exact hself _
    case select =>
      obtain ⟨-, rfl⟩ := mem_problem.mp h
      exact hself _
    case number | checkbox =>
      rw [List.mem_singleton.mp h]
      exact hself _
    case date =>
      split at h
      · cases h
      · rw [List.mem_singleton.mp h]
        exact hself _
    case file =>
      split at h
      · rw [List.mem_singleton.mp h]
        exact hself _
      · cases h
  | number n =>
    cases hfield : field.field_type <;> rw [hfield] at h <;> dsimp only at h
    case number =>
      rcases List.mem_append.mp h with h | h <;> split at h
      · obtain ⟨-, rfl⟩ := mem_problem.mp h
        exact (hself _).append _
      · cases h
      · obtain ⟨-, rfl⟩ := mem_problem.mp h
        exact (hself _).append _
      · cases h
    all_goals
      rw [List.mem_singleton.mp h]
      exact hself _
  | bool b =>
    cases hfield : field.field_type <;> rw [hfield] at h <;> dsimp only at h
    case checkbox => cases h
    all_goals
      rw [List.mem_singleton.mp h]
      exact hself _
  | _ =>
    cases hfield : field.field_type <;> rw [hfield] at h <;> dsimp only at h <;>
      rw [List.mem_singleton.mp h] <;> exact hself _

end Value

section Payload

variable {P : Platform} {schema : FormSchema} {payload : Map} {field : FieldDefinition}
  {entry : String × Value}

/-- The answer to a key is the one entry that has it. -/
theorem get_of_mem (hnodup : (payload.map (·.1)).Nodup) (h : entry ∈ payload) :
    payload.get entry.1 = some entry.2 := by
  induction payload with
  | nil => cases h
  | cons head payload ih =>
    rw [List.map_cons, List.nodup_cons] at hnodup
    rw [Map.get, List.lookup_cons]
    rcases List.mem_cons.mp h with rfl | h
    · simp
    · have hne : entry.1 ≠ head.1 := fun heq => hnodup.1 (heq ▸ List.mem_map_of_mem h)
      rw [beq_eq_false_iff_ne.mpr hne]
      exact ih hnodup.2 h

/-- A declared entry is judged by its field. -/
theorem check_entry_of_field (hkey : starts_with entry.1 RESERVED_PREFIX = false)
    (hfield : schema.field entry.1 = some field) : check_entry P schema entry =
      ((check_value P field entry.2).1.toList.map fun value => (entry.1, value),
        (check_value P field entry.2).2) := by
  simp [check_entry, hkey, hfield]

/-- An entry that is not declared is a problem. -/
theorem check_entry_of_none (hkey : starts_with entry.1 RESERVED_PREFIX = false)
    (hfield : schema.field entry.1 = none) : check_entry P schema entry =
      ([], [P.debug_str entry.1 ++ " is not a field on this form"]) := by
  simp [check_entry, hkey, hfield]

theorem check_entry_of_reserved (hkey : starts_with entry.1 RESERVED_PREFIX = true) :
    check_entry P schema entry = ([], []) := by
  simp [check_entry, hkey]

theorem mem_of_field (h : schema.field entry.1 = some field) :
    field ∈ schema.fields ∧ field.key = entry.1 :=
  ⟨List.mem_of_find?_eq_some h, by simpa using List.find?_some h⟩

/-- A reserved key is no field's. -/
theorem field_of_reserved (hschema : validate_schema P schema = .ok ())
    (hkey : starts_with entry.1 RESERVED_PREFIX = true) : schema.field entry.1 = none := by
  cases hfield : schema.field entry.1 with
  | none => rfl
  | some field =>
    obtain ⟨hmem, heq⟩ := mem_of_field hfield
    have hfree := (rules_of_validate_schema hschema hmem).2
    rw [heq, hkey] at hfree
    cases hfree

/-- The two passes find nothing. -/
def NoProblems (P : Platform) (schema : FormSchema) (payload : Map) : Prop :=
  (∀ entry ∈ payload, (check_entry P schema entry).2 = []) ∧
    ∀ field ∈ schema.fields, field.required = true → Answers payload field

theorem problems_eq_nil_iff : (payload.map (check_entry P schema)).flatMap (·.2) ++
    (schema.fields.flatMap fun field =>
      problem (field.required && is_absent (payload.get field.key)) (field.key ++ " is required"))
      = [] ↔ NoProblems P schema payload := by
  unfold NoProblems
  rw [List.append_eq_nil_iff, List.flatMap_eq_nil_iff, List.flatMap_eq_nil_iff]
  refine and_congr List.forall_mem_map (forall_congr' fun field => imp_congr_right fun _ => ?_)
  rw [problem_eq_nil, ← is_absent_iff]
  cases field.required <;> simp

/-- Nothing is found exactly in the payloads that fit. -/
theorem noProblems_iff
    (hnodup : (payload.map (·.1)).Nodup) (hshort : ∀ entry ∈ payload, Countable entry.2) :
    NoProblems P schema payload ↔ PayloadFits P schema payload := by
  constructor
  · rintro ⟨hentries, hrequired⟩
    refine ⟨fun entry hentry hkey => ?_, hrequired⟩
    cases hfield : schema.field entry.1 with
    | none =>
      have hnone := hentries entry hentry
      rw [check_entry_of_none hkey hfield] at hnone
      cases hnone
    | some field =>
      have hnone := hentries entry hentry
      rw [check_entry_of_field hkey hfield] at hnone
      exact ⟨field, rfl, ((check_value_iff (hshort entry hentry)).mp hnone).imp And.left And.left⟩
  · rintro ⟨hdeclared, hcomplete⟩
    refine ⟨fun entry hentry => ?_, hcomplete⟩
    cases hkey : starts_with entry.1 RESERVED_PREFIX with
    | true => rw [check_entry_of_reserved hkey]
    | false =>
      obtain ⟨field, hfield, hfine⟩ := hdeclared entry hentry hkey
      obtain ⟨hmem, heq⟩ := mem_of_field hfield
      -- What a required field is answered with is this very entry.
      have hpresent : field.required = true → is_absent (some entry.2) = false := by
        intro hrequired
        have hanswers := is_absent_iff.mpr (hcomplete field hmem hrequired)
        rwa [heq, get_of_mem hnodup hentry] at hanswers
      rw [check_entry_of_field hkey hfield]
      refine (check_value_iff (hshort entry hentry)).mpr (hfine.imp (fun hnull => ⟨hnull, ?_⟩)
        fun haccepts => ⟨haccepts, fun _ => hpresent⟩)
      cases hrequired : field.required with
      | false => rfl
      | true =>
        have habsent := hpresent hrequired
        cases hvalue : entry.2 <;> simp_all [Value.is_null, is_absent]

/-- Without problems, an entry contributes itself if it is declared and not null. -/
theorem check_entry_stores (hschema : validate_schema P schema = .ok ())
    (h : (check_entry P schema entry).2 = []) : (check_entry P schema entry).1 =
      if (schema.field entry.1).isSome && !entry.2.is_null then [entry] else [] := by
  cases hkey : starts_with entry.1 RESERVED_PREFIX with
  | true =>
    rw [check_entry_of_reserved hkey, field_of_reserved hschema hkey]
    rfl
  | false =>
    cases hfield : schema.field entry.1 with
    | none =>
      rw [check_entry_of_none hkey hfield]
      rfl
    | some field =>
      rw [check_entry_of_field hkey hfield] at h ⊢
      rw [check_value_stores h]
      cases entry.2.is_null <;> rfl

theorem answers_eq (hschema : validate_schema P schema = .ok ())
    (h : ∀ entry ∈ payload, (check_entry P schema entry).2 = []) :
    (payload.map (check_entry P schema)).flatMap (·.1) = declaredAnswers schema payload := by
  induction payload with
  | nil => rfl
  | cons entry payload ih =>
    rw [List.map_cons, List.flatMap_cons, ih fun e he => h e (List.mem_cons_of_mem _ he),
      check_entry_stores hschema (h entry List.mem_cons_self)]
    unfold declaredAnswers
    rw [List.filter_cons]
    split <;> rfl

/-- What is reported covers everything that is wrong. -/
theorem reportsAll (hshort : ∀ entry ∈ payload, Countable entry.2) {problems : List String}
    (hproblems : problems = (payload.map (check_entry P schema)).flatMap (·.2) ++
      schema.fields.flatMap fun field => problem
        (field.required && is_absent (payload.get field.key)) (field.key ++ " is required"))
    (hne : problems ≠ []) : ReportsAll P schema payload problems := by
  have hfound : ∀ entry ∈ payload, ∀ p ∈ (check_entry P schema entry).2, p ∈ problems := by
    intro entry hentry p hp
    rw [hproblems]
    exact List.mem_append_left _ (List.mem_flatMap.mpr ⟨_, List.mem_map_of_mem hentry, hp⟩)
  refine ⟨hne, fun entry hentry hkey hfield => hfound entry hentry _ ?_,
    fun entry hentry hkey field hfield hnull hreject => ?_, fun field hmem hrequired hmissing => ?_⟩
  · rw [check_entry_of_none hkey hfield]
    exact List.mem_singleton.mpr rfl
  · have hsome : (check_value P field entry.2).2 ≠ [] := fun hnone => by
      rcases (check_value_iff (hshort entry hentry)).mp hnone with ⟨hnull', -⟩ | ⟨haccepts, -⟩
      · rw [hnull] at hnull'
        cases hnull'
      · exact hreject haccepts
    obtain ⟨p, hp⟩ := List.exists_mem_of_ne_nil _ hsome
    refine ⟨p, hfound entry hentry p ?_, (mem_of_field hfield).2 ▸ mentions_of_check_value hp⟩
    rw [check_entry_of_field hkey hfield]
    exact hp
  · refine ⟨field.key ++ " is required", ?_, Mentions.self _ _⟩
    rw [hproblems]
    refine List.mem_append_right _ (List.mem_flatMap.mpr ⟨field, hmem, mem_problem.mpr ⟨?_, rfl⟩⟩)
    have habsent : is_absent (payload.get field.key) = true := by
      rw [← Bool.not_eq_false, is_absent_iff]
      exact hmissing
    rw [hrequired, habsent]
    rfl

/-- **What the validator accepts, stores and reports.** A payload passes a checked definition
exactly if it fits; then its declared answers are stored as they are; otherwise everything that is
wrong with it is reported. -/
theorem validate_submission_correct (hschema : validate_schema P schema = .ok ())
    (hnodup : (payload.map (·.1)).Nodup) (hshort : ∀ entry ∈ payload, Countable entry.2) :
    ((∃ answers, validate_submission P schema payload = .ok answers) ↔
      PayloadFits P schema payload) ∧
    (∀ answers, validate_submission P schema payload = .ok answers →
      answers = declaredAnswers schema payload) ∧
    ∀ problems, validate_submission P schema payload = .error problems →
      ReportsAll P schema payload problems := by
  rw [← noProblems_iff hnodup hshort, ← problems_eq_nil_iff]
  unfold validate_submission
  dsimp only
  split
  · next hempty =>
    have hnone := List.isEmpty_iff.mp hempty
    refine ⟨iff_of_true ⟨_, rfl⟩ hnone, fun answers h => ?_, fun _ => nofun⟩
    cases h
    exact answers_eq hschema (problems_eq_nil_iff.mp hnone).1
  · next hsome =>
    have hne := fun hnone => hsome (List.isEmpty_iff.mpr hnone)
    refine ⟨iff_of_false (fun ⟨_, h⟩ => nomatch h) hne, fun _ => nofun, fun problems h => ?_⟩
    cases h
    exact reportsAll hshort rfl hne

end Payload

/-- A form with an optional name, sent a name, a null, a reserved key and one that is not
declared. -/
theorem validate_submission_correct_sample :
    ∃ problems, validate_submission .sample (.sample ["name"])
      [("name", .string "Ada"), ("_gotcha", .null), ("phone", .bool true)] = .error problems ∧
    ReportsAll .sample (.sample ["name"])
      [("name", .string "Ada"), ("_gotcha", .null), ("phone", .bool true)] problems := by
  refine ⟨_, by rfl, (validate_submission_correct ?_ ?_ ?_).2.2 _ (by rfl)⟩
  · decide +kernel
  · decide
  · intro entry hentry text htext
    simp only [List.mem_cons, List.not_mem_nil, or_false] at hentry
    rcases hentry with rfl | rfl | rfl <;> cases htext
    decide

end SubmitSnap
