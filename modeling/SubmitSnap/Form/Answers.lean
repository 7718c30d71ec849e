import SubmitSnap.Form.Service

/-!
# What the validators guarantee

A schema that was checked has fields with distinct keys, so a payload entry is judged by the field
of its key and by no other. From this it follows what an accepted payload answers to a field, and
which answers are file answers.

## Main results

* `nodup_of_validate_schema` — the fields of a checked schema have distinct keys.
* `accepted_of_get` — a stored answer was accepted by its field.
* `lookup_file_answers` — the file answers are the answers to the file fields.
-/

namespace SubmitSnap

section Schema

variable {P : Platform} {schema : FormSchema} {field field' : FieldDefinition} {data : Map}
  {key : String} {v : Value}

theorem eq_nil_of_problem {c : Bool} {m : String} (h : problem c m = []) : c = false := by
  cases c with
  | false => rfl
  | true => cases h

/-- The keys of fields without problems are new and distinct. -/
theorem nodup_of_validate_fields {seen : List String} {fields : List FieldDefinition}
    (h : validate_fields P seen fields = []) :
    (fields.map (·.key)).Nodup ∧ ∀ field ∈ fields, field.key ∉ seen := by
  induction fields generalizing seen with
  | nil => exact ⟨List.nodup_nil, fun _ hf => absurd hf List.not_mem_nil⟩
  | cons field fields ih =>
    rw [validate_fields, List.append_eq_nil_iff] at h
    obtain ⟨hhead, htail⟩ := h
    obtain ⟨hnodup, hnew⟩ := ih htail
    have hfield : field.key ∉ seen := by
      simp only [validate_field, List.append_eq_nil_iff] at hhead
      exact of_decide_eq_false (eq_nil_of_problem hhead.1.1.1.2)
    rw [List.map_cons, List.nodup_cons]
    refine ⟨⟨fun hmem => ?_, hnodup⟩, fun field' hmem => ?_⟩
    · obtain ⟨field', hmem', heq⟩ := List.mem_map.mp hmem
      exact hnew field' hmem' (heq ▸ List.mem_cons_self)
    · rcases List.mem_cons.mp hmem with rfl | hmem
      · exact hfield
      · exact fun hseen => hnew field' hmem (List.mem_cons_of_mem _ hseen)

/-- The fields of a valid schema have distinct keys. -/
theorem nodup_of_validate_schema (h : validate_schema P schema = .ok ()) :
    (schema.fields.map (·.key)).Nodup := by
  unfold validate_schema at h
  dsimp only at h
  split at h
  · next hempty =>
    have hall := (List.append_eq_nil_iff.mp (List.isEmpty_iff.mp hempty)).2
    exact (nodup_of_validate_fields hall).1
  · cases h

theorem eq_of_key_eq (hnodup : (schema.fields.map (·.key)).Nodup) (hfield : field ∈ schema.fields)
    (hfield' : field' ∈ schema.fields) (hkey : field.key = field'.key) : field = field' :=
  List.inj_on_of_nodup_map hnodup hfield hfield' hkey

theorem mem_of_get (h : data.get key = some v) : (key, v) ∈ data := by
  induction data with
  | nil => cases h
  | cons entry data ih =>
    obtain ⟨key', v'⟩ := entry
    rw [Map.get, List.lookup_cons] at h
    split at h
    · next heq =>
      cases h
      rw [beq_iff_eq.mp heq]
      exact List.mem_cons_self
    · exact List.mem_cons_of_mem _ (ih h)

/-- A stored answer comes from an entry whose value its field accepts. -/
theorem accepted_of_get {payload : Map} (h : validate_submission P schema payload = .ok data)
    (hget : data.get key = some v) :
    ∃ field ∈ schema.fields, field.key = key ∧
    ∃ value, check_value P field value = (some v, []) := by
  unfold validate_submission at h
  dsimp only at h
  split at h
  · next hempty =>
    cases h
    have hnone := (List.append_eq_nil_iff.mp (List.isEmpty_iff.mp hempty)).1
    rw [List.flatMap_eq_nil_iff] at hnone
    obtain ⟨checked, hchecked, hmem⟩ := List.mem_flatMap.mp (mem_of_get hget)
    have hproblems := hnone checked hchecked
    obtain ⟨entry, -, rfl⟩ := List.mem_map.mp hchecked
    unfold check_entry at hmem hproblems
    split at hmem
    · cases hmem
    · next hreserved =>
      rw [if_neg hreserved] at hproblems
      split at hmem
      · cases hmem
      · next field hfind =>
        rw [hfind] at hproblems
        have hfield : field ∈ schema.fields := List.mem_of_find?_eq_some hfind
        have hkey : field.key = entry.1 := by simpa using List.find?_some hfind
        obtain ⟨value, hvalue, heq⟩ := List.mem_map.mp hmem
        cases heq
        refine ⟨field, hfield, hkey, entry.2, ?_⟩
        exact Prod.ext (Option.mem_toList.mp hvalue) hproblems
  · cases h

/-- The stored answer to a file field is a string. -/
theorem string_of_file_field {payload : Map} (hnodup : (schema.fields.map (·.key)).Nodup)
    (h : validate_submission P schema payload = .ok data) (hfield : field ∈ schema.fields)
    (hfile : field.field_type = .file) (hget : data.get field.key = some v) :
    ∃ text, v = .string text := by
  obtain ⟨field', hfield', hkey, value, hvalue⟩ := accepted_of_get h hget
  obtain rfl := eq_of_key_eq hnodup hfield' hfield hkey
  unfold check_value at hvalue
  dsimp only at hvalue
  rw [hfile] at hvalue
  cases value with
  | string text =>
    dsimp only at hvalue
    split at hvalue <;> cases hvalue
    exact ⟨text, rfl⟩
  | _ => cases hvalue

/-- The file answers name file fields, in their order. -/
theorem file_answers_keys (schema : FormSchema) (data : Map) :
    ((file_answers schema data).map (·.1)).Sublist (schema.fields.map (·.key)) := by
  unfold file_answers
  induction schema.fields with
  | nil => exact List.Sublist.slnil
  | cons field fields ih =>
    rw [List.filter_cons]
    split
    · rw [List.filterMap_cons]
      cases (data.get field.key).bind Value.as_str with
      | none => exact ih.cons _
      | some object_key => exact ih.cons_cons _
    · exact ih.cons _

theorem nodup_file_answers (hnodup : (schema.fields.map (·.key)).Nodup) (data : Map) :
    ((file_answers schema data).map (·.1)).Nodup :=
  (file_answers_keys schema data).nodup hnodup

/-- What the file answers say of a file field is what was answered. -/
theorem lookup_file_answers (hnodup : (schema.fields.map (·.key)).Nodup)
    (hfield : field ∈ schema.fields) (hfile : field.field_type = .file) :
    (file_answers schema data).lookup field.key = (data.get field.key).bind Value.as_str := by
  obtain ⟨before, after, hsplit⟩ := List.append_of_mem hfield
  have hrest : ∀ fields : List FieldDefinition, field.key ∉ fields.map (·.key) →
      ∀ answers, List.lookup field.key
        (((fields.filter fun f => f.field_type == .file).filterMap fun f =>
          ((data.get f.key).bind Value.as_str).map fun object_key => (f.key, object_key)) ++
            answers) = List.lookup field.key answers := by
    intro fields hnot answers
    induction fields with
    | nil => rfl
    | cons f fields ih =>
      rw [List.map_cons, List.mem_cons, not_or] at hnot
      rw [List.filter_cons]
      split
      · rw [List.filterMap_cons]
        cases (data.get f.key).bind Value.as_str with
        | none => exact ih hnot.2
        | some object_key =>
          rw [Option.map_some, List.cons_append, List.lookup_cons, beq_eq_false_iff_ne.mpr hnot.1]
          exact ih hnot.2
      · exact ih hnot.2
  rw [hsplit, List.map_append, List.map_cons, List.nodup_append', List.nodup_cons] at hnodup
  have hbefore : field.key ∉ before.map (·.key) := fun hmem =>
    List.disjoint_left.mp hnodup.2.2 hmem List.mem_cons_self
  have hafter := hrest after hnodup.2.1.1 []
  rw [List.append_nil] at hafter
  unfold file_answers
  rw [hsplit, List.filter_append, List.filterMap_append, hrest before hbefore, List.filter_cons,
    if_pos (by rw [hfile]; rfl), List.filterMap_cons]
  cases (data.get field.key).bind Value.as_str with
  | none => exact hafter
  | some object_key => simp

end Schema

end SubmitSnap
