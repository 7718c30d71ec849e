import SubmitSnap.Form.Sound
import SubmitSnap.Form.Export

/-!
# Filtering the inbox by an answer

A listing may ask for the submissions that have a certain answer under a certain key. The answer
comes out of a query string, so it is a text; it is taken for JSON if it can be read as JSON, and
for itself if not. A number or a boolean is then found under what the inbox shows of it. A text is
not if it can be read as JSON, and has to be asked for in quotes.

## Main results

* `answerListed` — under which text an answer is found.
-/

namespace SubmitSnap

/-! ### The question the database answers -/

mutual

/-- The first value is contained in the second, as `@>` asks inside an object. Numbers are compared
by their value: `1` is contained in `1.0`. -/
def Value.contained : Value → Value → Bool
  | .null, .null => true
  | .bool b, .bool b' => b == b'
  | .number n, .number n' => n.value == n'.value
  | .string s, .string s' => s == s'
  | .array items, .array items' => Value.all_contained items items'
  | .object entries, .object entries' => Map.contained entries entries'
  | _, _ => false

/-- Every item is contained in one of the others. -/
def Value.all_contained : List Value → List Value → Bool
  | [], _ => true
  | item :: items, items' => (items'.any item.contained) && Value.all_contained items items'

/-- Every entry is contained in the one of the same key. -/
def Map.contained : List (String × Value) → List (String × Value) → Bool
  | [], _ => true
  | (key, value) :: entries, entries' =>
    (Map.get entries' key).any value.contained && Map.contained entries entries'

end

/-- Narrowing applied when reading the inbox; `none` means not to filter on this. -/
structure SubmissionFilters where
  form_id : Option Uuid
  status : Option SubmissionStatus
  since : Option Timestamp
  until_ : Option Timestamp
  contains : Option (String × Value)

/-- `SUBMISSION_FILTERS`. -/
def SubmissionFilters.accepts (filters : SubmissionFilters) (row : SubmissionRecord) : Bool :=
  filters.form_id.all (row.form_id == ·) &&
    filters.status.all (row.status == ·) &&
    filters.since.all (· ≤ row.created_at) &&
    filters.until_.all (row.created_at < ·) &&
    filters.contains.all fun entry => Map.contained [entry] row.data

/-- The submissions the filters let through, newest first. -/
def SubmissionFilters.matching (filters : SubmissionFilters) (db : Database)
    (organization_id : Uuid) : List SubmissionRecord :=
  (db.submissions.rows.filter fun row =>
    row.organization_id == organization_id && filters.accepts row).insertionSort
      fun row row' => row'.place ≤ row.place

/-- `SubmissionRepository::list`. -/
def SubmissionFilters.list (filters : SubmissionFilters) (db : Database) (organization_id : Uuid)
    (limit offset : ℕ) : List SubmissionRecord :=
  ((filters.matching db organization_id).drop offset).take limit

/-! ### The query -/

structure SubmissionQuery where
  limit : Option ℕ
  offset : Option ℕ
  form_id : Option Uuid
  status : Option SubmissionStatus
  since : Option Timestamp
  until_ : Option Timestamp
  /-- An answer key to match, together with `value`. -/
  field : Option String
  value : Option String

def page_bounds (limit offset : Option ℕ) : ℕ × ℕ :=
  (max 1 (min (limit.getD 50) 100), offset.getD 0)

namespace SubmissionQuery

def bounds (query : SubmissionQuery) : ℕ × ℕ := page_bounds query.limit query.offset

/-- `form_id` overrides whatever the query string carried. `from_str` is `serde_json::from_str`. -/
def filters (from_str : String → Option Value) (query : SubmissionQuery) (form_id : Option Uuid) :
    SubmissionFilters where
  form_id := form_id.or query.form_id
  status := query.status
  since := query.since
  until_ := query.until_
  contains := match query.field, query.value with
    | some field, some value => some (field, (from_str value).getD (.string value))
    | _, _ => none

end SubmissionQuery

/-- `FormService::list_submissions` with the query of a request, for a member of the
organization. -/
def list_submissions (from_str : String → Option Value) (db : Database) (organization_id : Uuid)
    (form_id : Option Uuid) (query : SubmissionQuery) : List SubmissionRecord :=
  let (limit, offset) := query.bounds
  (query.filters from_str form_id).list db organization_id limit offset

/-! ### What a filter is for -/

/-- An answer that is one value: a text, a number or a boolean. -/
def Value.is_scalar : Value → Bool
  | .string _ | .number _ | .bool _ => true
  | _ => false

/-- What the inbox shows of an answer. -/
def Value.shown (P : Platform) : Value → String
  | .string s => s
  | value => value.to_json P

/-- The query for an answer, and for nothing else. -/
def SubmissionQuery.answer (key text : String) (limit : Option ℕ) (offset : ℕ) :
    SubmissionQuery where
  limit := limit
  offset := some offset
  form_id := none
  status := none
  since := none
  until_ := none
  field := some key
  value := some text

/-- The submission is on a page of the listing with `field = key` and `value = text`. -/
def Listed (from_str : String → Option Value) (db : Database) (form_id : Option Uuid)
    (limit : Option ℕ) (key text : String) (row : SubmissionRecord) : Prop :=
  ∃ offset, row ∈ list_submissions from_str db row.organization_id form_id
    (.answer key text limit offset)

variable {from_str : String → Option Value} {db : Database} {row : SubmissionRecord}
  {form_id : Option Uuid} {limit : Option ℕ} {key text : String} {v w : Value}
  {filters : SubmissionFilters} {organization_id : Uuid} {P : Platform}

/-! ### Pages -/

/-- Every element of a list is on a page of it. -/
theorem exists_page {α : Type} {rows : List α} {r : α} {n : ℕ} (hn : 1 ≤ n) :
    r ∈ rows ↔ ∃ offset, r ∈ (rows.drop offset).take n := by
  constructor
  · intro h
    obtain ⟨init, rest, rfl⟩ := List.append_of_mem h
    refine ⟨init.length, ?_⟩
    obtain ⟨n, rfl⟩ := Nat.exists_eq_add_of_le' hn
    rw [List.drop_left, List.take_succ_cons]
    exact List.mem_cons_self
  · rintro ⟨offset, h⟩
    exact List.mem_of_mem_drop (List.mem_of_mem_take h)

theorem one_le_page_size (query : SubmissionQuery) : 1 ≤ query.bounds.1 := le_max_left _ _

/-- A page shows a submission of the organization if the filters let it through. -/
theorem listed_iff (hrow : row ∈ db.submissions.rows) :
    Listed from_str db form_id limit key text row ↔
      ((SubmissionQuery.answer key text limit 0).filters from_str form_id).accepts row = true := by
  have hpage := one_le_page_size (.answer key text limit 0)
  have hmatching : row ∈
      ((SubmissionQuery.answer key text limit 0).filters from_str form_id).matching
      db row.organization_id ↔
      ((SubmissionQuery.answer key text limit 0).filters from_str form_id).accepts row = true := by
    rw [SubmissionFilters.matching, List.mem_insertionSort, List.mem_filter, beq_self_eq_true,
      Bool.true_and]
    exact and_iff_right hrow
  exact (exists_page hpage).symm.trans hmatching

/-! ### Containment -/

/-- A scalar contains itself. -/
theorem contained_self (h : v.is_scalar = true) : v.contained v = true := by
  cases v <;> simp_all [Value.contained, Value.is_scalar]

/-- A text contains itself and nothing else. -/
theorem contained_string_iff {s : String} : w.contained (.string s) = true ↔ w = .string s := by
  cases w <;> simp [Value.contained]

theorem map_contained_eq (hanswer : row.data.get key = some v) :
    Map.contained [(key, w)] row.data = w.contained v := by
  rw [Map.contained, Map.contained, Bool.and_true, hanswer, Option.any_some]

/-- Only the answer decides whether a submission is listed. -/
theorem listed_iff_value (hrow : row ∈ db.submissions.rows)
    (hform : ∀ id ∈ form_id, id = row.form_id) (hanswer : row.data.get key = some v) :
    Listed from_str db form_id limit key text row ↔
      ((from_str text).getD (.string text)).contained v = true := by
  have hid : form_id.all (row.form_id == ·) = true := by
    cases form_id with
    | none => rfl
    | some id => exact beq_iff_eq.mpr (hform id rfl).symm
  have hfilters : ((SubmissionQuery.answer key text limit 0).filters from_str form_id).accepts row =
      Map.contained [(key, (from_str text).getD (.string text))] row.data := by
    simp only [SubmissionFilters.accepts, SubmissionQuery.filters, SubmissionQuery.answer,
      Option.or_none, hid, Option.all_none, Option.all_some, Bool.true_and]
  rw [listed_iff hrow, hfilters, map_contained_eq hanswer]

/-- **Under which text an answer is found.** What the inbox shows of it will do unless it is a text
that can be read as JSON; its JSON text always will. -/
theorem answerListed (hrow : row ∈ db.submissions.rows) (hform : ∀ id ∈ form_id, id = row.form_id)
    (hanswer : row.data.get key = some v) (hscalar : v.is_scalar = true)
    (hread : from_str (v.to_json P) = some v) (hself : ∀ s, from_str s ≠ some (.string s)) :
    (Listed from_str db form_id limit key (v.shown P) row ↔
      ∀ s, v = .string s → from_str s = none) ∧
    Listed from_str db form_id limit key (v.to_json P) row := by
  have hlisted : ∀ {text}, Listed from_str db form_id limit key text row ↔
      ((from_str text).getD (.string text)).contained v = true :=
    listed_iff_value hrow hform hanswer
  have hjson : ((from_str (v.to_json P)).getD (.string (v.to_json P))).contained v = true := by
    rw [hread]
    exact contained_self hscalar
  refine ⟨hlisted.trans ?_, hlisted.mpr hjson⟩
  cases v with
  | string s =>
    rw [contained_string_iff]
    constructor
    · rintro h _ ⟨⟩
      cases hparsed : from_str s with
      | none => rfl
      | some w =>
        rw [Value.shown, hparsed] at h
        exact absurd (hparsed.trans (congrArg some h)) (hself s)
    · intro h
      rw [Value.shown, h s rfl]
      rfl
  | number n => exact ⟨fun _ => nofun, fun _ => hjson⟩
  | bool b => exact ⟨fun _ => nofun, fun _ => hjson⟩
  | null | array | object => cases hscalar

/-! ### A text that looks like a number -/

/-- A reader of `null`, booleans, natural numbers and strings without escapes. -/
def read_scalar (text : String) : Option Value :=
  match text.toList with
  | ['n', 'u', 'l', 'l'] => some .null
  | ['t', 'r', 'u', 'e'] => some (.bool true)
  | ['f', 'a', 'l', 's', 'e'] => some (.bool false)
  | '"' :: rest =>
    if rest.getLast? = some '"' ∧
        rest.dropLast.all (fun c => c ≠ '"' && c ≠ '\\' && 0x20 ≤ c.toNat) then
      some (.string (String.ofList rest.dropLast))
    else none
  | first :: rest =>
    if (first :: rest).all Char.isDigit ∧ (first = '0' → rest = []) then
      some (.number ⟨((first :: rest).foldl (fun n c => 10 * n + (c.toNat - 48)) 0 : ℕ), 0⟩)
    else none
  | [] => none

theorem read_scalar_ne (s : String) : read_scalar s ≠ some (.string s) := by
  intro h
  unfold read_scalar at h
  split at h
  any_goals cases h
  · next rest hs =>
    split at h
    · have hlength := congrArg List.length hs
      rw [← Value.string.inj (Option.some.inj h), String.toList_ofList] at hlength
      simp at hlength
    · cases h
  · split at h <;> cases h

/-- Somebody answers a text field with a year. -/
def answersYear : List Step :=
  [.spawn 0 (.submit "contact" [("name", .string "2024")] ⟨none, none⟩ none), .step 0 {},
    .step 0 {}, .step 0 {}, .step 0 { id := 3 }, .step 0 {}]

/-- **A text may look like a number.** -/
theorem not_answerListed : ¬ ∀ w row key v, Reaches .sample anything (World.start .sample) w →
    row ∈ w.shared.db.submissions.rows → row.data.get key = some v → v.is_scalar = true →
    Listed read_scalar w.shared.db none none key (v.shown .sample) row := by
  intro hall
  let w := Deployment.sample.play anything answersYear .sample
  have hstored : ∃ row ∈ w.shared.db.submissions.rows,
      row.data.get "name" = some (.string "2024") := ⟨_, List.mem_cons_self, rfl⟩
  obtain ⟨row, hrow, hanswer⟩ := hstored
  have hlisted := hall w row "name" _ (Deployment.sample.reaches_play _ answersYear _) hrow
      hanswer rfl
  have hparsed := (listed_iff_value hrow (by rintro _ ⟨⟩) hanswer).mp hlisted
  obtain ⟨n, hread⟩ : ∃ n, read_scalar "2024" = some (.number n) := ⟨_, rfl⟩
  rw [Value.shown, hread, contained_string_iff] at hparsed
  cases hparsed

theorem answerListed_year :
    let w := Deployment.sample.play anything answersYear .sample
    ∃ row ∈ w.shared.db.submissions.rows, row.data.get "name" = some (.string "2024") ∧
      Listed read_scalar w.shared.db none none "name" "\"2024\"" row := by
  intro w
  have hstored : ∃ row ∈ w.shared.db.submissions.rows,
      row.data.get "name" = some (.string "2024") := ⟨_, List.mem_cons_self, rfl⟩
  obtain ⟨row, hrow, hanswer⟩ := hstored
  have hread : read_scalar ((Value.string "2024").to_json .sample) = some (.string "2024") := rfl
  exact ⟨row, hrow, hanswer,
    (answerListed hrow (by rintro _ ⟨⟩) hanswer rfl hread read_scalar_ne).2⟩

end SubmitSnap
