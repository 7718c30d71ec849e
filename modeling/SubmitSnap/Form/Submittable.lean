import SubmitSnap.Form.Answers
import SubmitSnap.Request

/-!
# Which definitions can be submitted

`validate_schema` is meant to accept only definitions to which some payload can be submitted. It
nearly does: it compares the bounds of a field with each other, but not with what is implied. A text
field without a `max_length` takes at most `MAX_TEXT_LENGTH` characters, so a larger `min_length`
leaves a required one without an answer; and a required select needs an option that is not blank.

The theorem of this module says exactly which accepted definitions have a payload: those whose
required fields are `Answerable`.

## The argument

A definition asks for nothing across fields, so a payload can be put together from one answer for
each required field; that the keys are distinct makes the answers independent of each other
(`exists_payload`). For one field the question is whether its rules contradict each other. They do
not if a number of characters is left over between its bounds, and there is a text of every length
(`exists_text`). Conversely, an accepted payload contains an answer to each required field, and
that answer is not blank.

## Main results

* `answerable_iff` — a field has an answer if and only if it is answerable.
* `submittable_iff` — a checked definition has a payload if and only if its required fields have.
* `not_submittable` — a required text field that wants more characters than any text may have.
-/

namespace SubmitSnap

/-- The bounds of a text field let `n` characters pass. -/
def FieldDefinition.Fits (field : FieldDefinition) (n : ℕ) : Prop :=
  field.min_length.getD 0 ≤ n ∧ n ≤ field.max_length.getD MAX_TEXT_LENGTH

/-- Some value that is not blank is within the rules of the field. -/
def FieldDefinition.Answerable (P : Platform) (field : FieldDefinition) : Prop :=
  match field.field_type with
  | .text | .textarea => ∃ n < 2 ^ 32, field.Fits n
  | .email => ∃ address, P.validate_email address = true ∧ (trim address).isEmpty = false ∧
    field.Fits (char_count address)
  | .date => ∃ text, P.is_date text = true ∧ (trim text).isEmpty = false
  | .select => ∃ option ∈ field.options.getD [], (trim option).isEmpty = false
  | .number | .checkbox | .file => True

/-- The payload is a JSON object the definition accepts. -/
def Submittable (P : Platform) (schema : FormSchema) : Prop :=
  ∃ payload : Map, (payload.map (·.1)).Nodup ∧
    ∃ data, validate_submission P schema payload = .ok data

section Submittable

variable {P : Platform} {schema : FormSchema} {field : FieldDefinition} {v : Value} {m : Map}

/-! ### Text -/

/-- A text is blank when all of it is whitespace. -/
theorem trim_isEmpty_iff (s : String) :
    (trim s).isEmpty = true ↔ ∀ c ∈ s.toList, is_whitespace c = true := by
  have hempty : ∀ l : List Char, (String.ofList l).isEmpty = true ↔ l = [] := by
    intro l
    simp
  unfold trim
  rw [hempty, List.reverse_eq_nil_iff, List.dropWhile_eq_nil_iff]
  simp only [List.mem_reverse]
  constructor
  · intro h
    rw [← List.dropWhile_eq_nil_iff]
    cases hrest : s.toList.dropWhile is_whitespace with
    | nil => rfl
    | cons c rest =>
      have hne : s.toList.dropWhile is_whitespace ≠ [] := by
        rw [hrest]
        exact List.cons_ne_nil _ _
      have hhead := List.head_dropWhile_not is_whitespace hne
      rw [h _ (List.head_mem hne)] at hhead
      cases hhead
  · exact fun h c hc => h c (List.dropWhile_sublist _ |>.mem hc)

/-- There is a text of any count of characters that is not blank: the count is kept in 32 bits. -/
theorem exists_text {n : ℕ} (hn : n < 2 ^ 32) :
    ∃ text, char_count text = n ∧ (trim text).isEmpty = false := by
  obtain ⟨k, hk, hmod⟩ : ∃ k, 0 < k ∧ k % 2 ^ 32 = n := by
    refine ⟨n + 2 ^ 32, by omega, ?_⟩
    rw [Nat.add_mod_right, Nat.mod_eq_of_lt hn]
  refine ⟨String.ofList (List.replicate k 'a'), ?_, ?_⟩
  · rw [char_count, String.length_ofList, List.length_replicate]
    exact hmod
  · rw [← Bool.not_eq_true, trim_isEmpty_iff]
    intro hall
    have hmem : 'a' ∈ (String.ofList (List.replicate k 'a')).toList := by
      rw [String.toList_ofList, List.mem_replicate]
      exact ⟨by omega, rfl⟩
    exact absurd (hall 'a' hmem) (by decide)

/-! ### One field -/

/-- What is wrong with a text answer, in one place. -/
theorem check_text_iff {text : String}
    (hfield : field.field_type = .text ∨ field.field_type = .textarea ∨ field.field_type = .email)
    (hblank : field.required = true → (trim text).isEmpty = false) :
    (check_value P field (.string text)).2 = [] ↔ field.Fits (char_count text) ∧
      (field.field_type = .email → P.validate_email text = true) := by
  have hfine : ¬ (field.required && (trim text).isEmpty) = true := by
    simpa using hblank
  unfold check_value FieldDefinition.Fits
  rcases hfield with h | h | h <;> rw [h] <;> dsimp only <;> rw [if_neg hfine] <;>
    cases field.min_length <;> simp [problem, and_assoc]

/-- **A field has an answer** that is not blank exactly if it is answerable. -/
theorem answerable_iff {named : String} (hrules : validate_field_rules P field named = []) :
    field.Answerable P ↔ ∃ v, is_absent (some v) = false ∧ (check_value P field v).2 = [] := by
  have hbounds : exceeds (field.min.map P.as_f64) (field.max.map P.as_f64) = false := by
    simp only [validate_field_rules, List.append_eq_nil_iff] at hrules
    exact eq_nil_of_problem hrules.1.1.2
  unfold FieldDefinition.Answerable
  cases h : field.field_type with
  | text | textarea =>
    constructor
    · rintro ⟨n, hn, hfits⟩
      obtain ⟨text, rfl, hblank⟩ := exists_text hn
      refine ⟨.string text, hblank, (check_text_iff (by simp [h]) fun _ => hblank).mpr ⟨hfits, ?_⟩⟩
      rw [h]
      exact nofun
    · rintro ⟨v, habsent, hcheck⟩
      cases v with
      | string text =>
        exact ⟨char_count text, Nat.mod_lt _ (by decide),
          ((check_text_iff (by simp [h]) fun _ => habsent).mp hcheck).1⟩
      | null => cases habsent
      | _ => simp [check_value, h] at hcheck
  | email =>
    constructor
    · rintro ⟨address, hvalid, hblank, hfits⟩
      exact ⟨.string address, hblank, (check_text_iff (by simp [h]) fun _ => hblank).mpr
        ⟨hfits, fun _ => hvalid⟩⟩
    · rintro ⟨v, habsent, hcheck⟩
      cases v with
      | string address =>
        obtain ⟨hfits, hvalid⟩ := (check_text_iff (by simp [h]) fun _ => habsent).mp hcheck
        exact ⟨address, hvalid h, habsent, hfits⟩
      | null => cases habsent
      | _ => simp [check_value, h] at hcheck
  | number =>
    -- A bound meets itself, and the lower one meets the other.
    refine ⟨fun _ => ⟨.number ⟨field.min.getD (field.max.getD 0), 0⟩, rfl, ?_⟩, fun _ => trivial⟩
    unfold exceeds at hbounds
    unfold check_value
    rw [h]
    cases hmin : field.min <;> cases hmax : field.max <;> simp_all [problem]
  | date =>
    constructor
    · rintro ⟨text, hdate, hblank⟩
      exact ⟨.string text, hblank, by simp [check_value, h, hdate]⟩
    · rintro ⟨v, habsent, hcheck⟩
      cases v with
      | string text =>
        refine ⟨text, ?_, habsent⟩
        by_contra hdate
        simp [check_value, h, hdate] at hcheck
      | null => cases habsent
      | _ => simp [check_value, h] at hcheck
  | select =>
    constructor
    · rintro ⟨option, hoption, hblank⟩
      exact ⟨.string option, hblank, by simp [check_value, h, problem, hoption]⟩
    · rintro ⟨v, habsent, hcheck⟩
      cases v with
      | string option =>
        refine ⟨option, ?_, habsent⟩
        by_contra hoption
        simp [check_value, h, problem, hoption] at hcheck
      | null => cases habsent
      | _ => simp [check_value, h] at hcheck
  | checkbox => exact ⟨fun _ => ⟨.bool true, rfl, by simp [check_value, h]⟩, fun _ => trivial⟩
  | file =>
    have hblank : (trim "x").isEmpty = false := by decide
    exact ⟨fun _ => ⟨.string "x", hblank, by simp [check_value, h, hblank]⟩, fun _ => trivial⟩

/-! ### The definition -/

/-- Each field of a checked definition was checked. -/
theorem exists_validate_field {seen : List String} {fields : List FieldDefinition}
    (h : validate_fields P seen fields = []) (hfield : field ∈ fields) :
    ∃ seen', validate_field P seen' field = [] := by
  induction fields generalizing seen with
  | nil => exact absurd hfield List.not_mem_nil
  | cons field' fields ih =>
    rw [validate_fields, List.append_eq_nil_iff] at h
    rcases List.mem_cons.mp hfield with rfl | hfield
    · exact ⟨seen, h.1⟩
    · exact ih h.2 hfield

theorem exists_validate_field_of_schema (h : validate_schema P schema = .ok ())
    (hfield : field ∈ schema.fields) : ∃ seen, validate_field P seen field = [] := by
  unfold validate_schema at h
  dsimp only at h
  split at h
  · next hempty =>
    have hall := (List.append_eq_nil_iff.mp (List.isEmpty_iff.mp hempty)).2
    exact exists_validate_field hall hfield
  · cases h

/-- The rules of a checked field are consistent, and its key is not reserved. -/
theorem rules_of_validate_schema (h : validate_schema P schema = .ok ())
    (hfield : field ∈ schema.fields) : (∃ named, validate_field_rules P field named = []) ∧
      starts_with field.key RESERVED_PREFIX = false := by
  obtain ⟨seen, hok⟩ := exists_validate_field_of_schema h hfield
  simp only [validate_field, List.append_eq_nil_iff] at hok
  exact ⟨⟨_, hok.2⟩, eq_nil_of_problem hok.1.1.2⟩

theorem is_valid_key_of_validate_schema (h : validate_schema P schema = .ok ())
    (hfield : field ∈ schema.fields) : is_valid_key field.key = true := by
  obtain ⟨seen, hok⟩ := exists_validate_field_of_schema h hfield
  simp only [validate_field, List.append_eq_nil_iff] at hok
  simpa using eq_nil_of_problem hok.1.1.1.1

/-- The field of a key is the one that has it. -/
theorem field_of_mem (hnodup : (schema.fields.map (·.key)).Nodup) (hfield : field ∈ schema.fields) :
    schema.field field.key = some field := by
  unfold FormSchema.field
  cases hfind : schema.fields.find? fun f => f.key == field.key with
  | none =>
    have hnone := List.find?_eq_none.mp hfind field hfield
    simp at hnone
  | some field' =>
    have hkey : field'.key = field.key := by simpa using List.find?_some hfind
    rw [eq_of_key_eq hnodup (List.mem_of_find?_eq_some hfind) hfield hkey]

/-- What becomes of an entry that names a field. -/
theorem check_entry_of_mem (h : validate_schema P schema = .ok ())
    (hfield : field ∈ schema.fields) :
    (check_entry P schema (field.key, v)).2 = (check_value P field v).2 := by
  unfold check_entry
  dsimp only
  rw [(rules_of_validate_schema h hfield).2, if_neg Bool.false_ne_true,
    field_of_mem (nodup_of_validate_schema h) hfield]

theorem get_of_mem_keys {key : String} (h : key ∈ m.map (·.1)) : ∃ v, m.get key = some v := by
  induction m with
  | nil => exact absurd h List.not_mem_nil
  | cons entry m ih =>
    obtain ⟨key', v'⟩ := entry
    rw [Map.get, List.lookup_cons]
    by_cases heq : key = key'
    · exact ⟨v', by simp [heq]⟩
    · rw [beq_eq_false_iff_ne.mpr heq]
      exact ih ((List.mem_cons.mp h).resolve_left heq)

/-- The payload that answers just the required fields. -/
theorem exists_payload (fields : List FieldDefinition)
    (h : ∀ field ∈ fields, field.required = true →
      ∃ v, is_absent (some v) = false ∧ (check_value P field v).2 = []) :
    ∃ payload : Map, payload.map (·.1) = (fields.filter (·.required)).map (·.key) ∧
      ∀ entry ∈ payload, ∃ field ∈ fields, field.key = entry.1 ∧
        is_absent (some entry.2) = false ∧ (check_value P field entry.2).2 = [] := by
  induction fields with
  | nil => exact ⟨[], rfl, fun _ hentry => absurd hentry List.not_mem_nil⟩
  | cons field fields ih =>
    obtain ⟨payload, hkeys, hentries⟩ := ih fun f hf => h f (List.mem_cons_of_mem _ hf)
    have hrest : ∀ entry ∈ payload, ∃ f ∈ field :: fields, f.key = entry.1 ∧
        is_absent (some entry.2) = false ∧ (check_value P f entry.2).2 = [] := by
      intro entry hentry
      obtain ⟨f, hf, hfine⟩ := hentries entry hentry
      exact ⟨f, List.mem_cons_of_mem _ hf, hfine⟩
    by_cases hrequired : field.required = true
    · obtain ⟨v, hpresent, hcheck⟩ := h field List.mem_cons_self hrequired
      refine ⟨(field.key, v) :: payload, ?_, fun entry hentry => ?_⟩
      · rw [List.map_cons, hkeys, List.filter_cons_of_pos hrequired, List.map_cons]
      · rcases List.mem_cons.mp hentry with rfl | hentry
        · exact ⟨field, List.mem_cons_self, rfl, hpresent, hcheck⟩
        · exact hrest entry hentry
    · refine ⟨payload, ?_, hrest⟩
      rw [hkeys, List.filter_cons_of_neg hrequired]

/-- An accepted payload answers every required field. -/
theorem Submittable.answerable (hs : Submittable P schema) (h : validate_schema P schema = .ok ())
    (hfield : field ∈ schema.fields) (hrequired : field.required = true) : field.Answerable P := by
  obtain ⟨payload, -, data, hvalid⟩ := hs
  unfold validate_submission at hvalid
  dsimp only at hvalid
  split at hvalid
  · next hempty =>
    obtain ⟨hentries, hmissing⟩ := List.append_eq_nil_iff.mp (List.isEmpty_iff.mp hempty)
    rw [List.flatMap_eq_nil_iff] at hentries hmissing
    have hpresent := eq_nil_of_problem (hmissing field hfield)
    rw [hrequired, Bool.true_and] at hpresent
    cases hget : payload.get field.key with
    | none =>
      rw [hget] at hpresent
      cases hpresent
    | some v =>
      rw [hget] at hpresent
      have hentry := hentries _ (List.mem_map_of_mem (mem_of_get hget))
      rw [check_entry_of_mem h hfield] at hentry
      obtain ⟨⟨named, hrules⟩, -⟩ := rules_of_validate_schema h hfield
      exact (answerable_iff hrules).mpr ⟨v, hpresent, hentry⟩
  · cases hvalid

/-- **Which checked definitions can be submitted**: those whose required fields are answerable. -/
theorem submittable_iff (h : validate_schema P schema = .ok ()) :
    Submittable P schema ↔ ∀ field ∈ schema.fields, field.required = true →
      field.Answerable P := by
  constructor
  · exact fun hs field hfield hrequired => hs.answerable h hfield hrequired
  · intro hanswerable
    obtain ⟨payload, hkeys, hentries⟩ :=
      exists_payload schema.fields fun field hfield hrequired => by
      obtain ⟨⟨named, hrules⟩, -⟩ := rules_of_validate_schema h hfield
      exact (answerable_iff hrules).mp (hanswerable field hfield hrequired)
    refine ⟨payload, ?_, (payload.map (check_entry P schema)).flatMap (·.1), ?_⟩
    · rw [hkeys]
      exact (List.filter_sublist.map _).nodup (nodup_of_validate_schema h)
    · unfold validate_submission
      dsimp only
      rw [if_pos]
      rw [List.isEmpty_iff, List.append_eq_nil_iff, List.flatMap_eq_nil_iff,
        List.flatMap_eq_nil_iff]
      refine ⟨fun checked hchecked => ?_, fun field hfield => ?_⟩
      · obtain ⟨entry, hentry, rfl⟩ := List.mem_map.mp hchecked
        obtain ⟨field, hfield, hkey, -, hcheck⟩ := hentries entry hentry
        have hentry' : entry = (field.key, entry.2) := Prod.ext hkey.symm rfl
        rw [hentry', check_entry_of_mem h hfield]
        exact hcheck
      · by_cases hrequired : field.required = true
        · have hmem : field.key ∈ payload.map (·.1) := by
            rw [hkeys]
            exact List.mem_map_of_mem (List.mem_filter.mpr ⟨hfield, hrequired⟩)
          obtain ⟨v, hget⟩ := get_of_mem_keys hmem
          obtain ⟨field', hfield', hkey, hpresent, -⟩ := hentries _ (mem_of_get hget)
          rw [hget, hpresent, Bool.and_false]
          rfl
        · rw [Bool.not_eq_true] at hrequired
          rw [hrequired, Bool.false_and]
          rfl

end Submittable

/-! ### A text nobody can write -/

/-- A required text of at least 10001 characters, with no maximum. -/
def longAnswer : FormSchema :=
  { FormSchema.sample [] with
    fields := [{ FieldDefinition.sample "essay" with required := true, min_length := some 10001 }] }

theorem not_answerable_essay : ¬ FieldDefinition.Answerable .sample
    { FieldDefinition.sample "essay" with required := true, min_length := some 10001 } := by
  rintro ⟨n, -, hmin, hmax⟩
  change 10001 ≤ n at hmin
  change n ≤ 10000 at hmax
  omega

/-- **A checked definition nobody can submit to.** -/
theorem not_submittable : ¬ ∀ schema : FormSchema, validate_schema .sample schema = .ok () →
    Submittable .sample schema := by
  intro hall
  have hchecked : validate_schema .sample longAnswer = .ok () := by decide +kernel
  exact not_answerable_essay ((hall longAnswer hchecked).answerable hchecked List.mem_cons_self rfl)

/-- A form that asks for a name of at least two characters can be submitted to. -/
theorem submittable_sample : Submittable .sample { FormSchema.sample [] with
    fields := [{
      FieldDefinition.sample "name" with required := true, min_length := some 2 }] } := by
  refine (submittable_iff (by decide +kernel)).mpr fun field hfield _ => ?_
  obtain rfl := List.mem_singleton.mp hfield
  exact ⟨2, by decide, by decide, by decide⟩

end SubmitSnap
