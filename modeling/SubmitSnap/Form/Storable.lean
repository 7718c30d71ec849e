import SubmitSnap.Form.Payload
import SubmitSnap.Form.Sound

/-!
# Whether an accepted payload can be stored

The validator and the column have different ideas of a text. A `jsonb` value holds no U+0000; the
validator counts characters, and takes that one for a character like any other. Keys are no concern,
since an answer is filed under the key of its field, and the keys of a checked definition are ASCII.

## The argument

The answers of an accepted payload are its values under keys of the definition, each unchanged, so
there is a U+0000 among them if and only if there is one in a value that is filed. The keys cannot
contribute one, as `is_valid_key` admits ASCII only. The rest is to show that the database has no
other reason to refuse the row: the form was found and its organization exists, which holds of
every form in every reachable database (`FormsSound`), and nobody takes a step between the reading
of the form and the insert, as in the module on a single submission.

## Main definitions

* `Map.Storable` — the payloads the column can take.

## Main results

* `stored_iff` — an accepted payload is stored exactly if it is storable.
* `not_stored` — one that is not.
-/

namespace SubmitSnap

open Interleave
open FormService (new_submission)

/-- No answer has a U+0000 in it. The keys that are reserved are never stored, so theirs do not
matter. -/
def Map.Storable (payload : Map) : Prop :=
  ∀ entry ∈ payload, starts_with entry.1 RESERVED_PREFIX = false → entry.2.has_nul = false

/-! ### What the column refuses

PostgreSQL refuses U+0000 in a `jsonb` value, in keys as in texts and at any depth. Answers are
texts, numbers or booleans under keys of the definition. -/

theorem Map.has_nul_iff {data : Map} : Map.has_nul data = false ↔
    ∀ entry ∈ data, text_has_nul entry.1 = false ∧ entry.2.has_nul = false := by
  induction data with
  | nil => simp [Map.has_nul]
  | cons entry data ih =>
    rw [Map.has_nul, Bool.or_eq_false_iff, Bool.or_eq_false_iff, ih, List.forall_mem_cons]

/-- A key that a definition may use is ASCII, and has no control characters. -/
theorem text_has_nul_of_is_valid_key {key : String} (h : is_valid_key key = true) :
    text_has_nul key = false := by
  have hletter : ∀ c : Char, is_ascii_lowercase c = true → c.toNat ≠ 0 := fun c hc h0 => by
    rw [is_ascii_lowercase, Bool.and_eq_true, decide_eq_true_eq] at hc
    have hle : 'a'.toNat ≤ c.toNat := hc.1
    rw [h0] at hle
    cases hle
  have hdigit : ∀ c : Char, is_ascii_digit c = true → c.toNat ≠ 0 := fun c hc h0 => by
    rw [is_ascii_digit, Bool.and_eq_true, decide_eq_true_eq] at hc
    have hle : '0'.toNat ≤ c.toNat := hc.1
    rw [h0] at hle
    cases hle
  unfold is_valid_key at h
  unfold text_has_nul
  cases hkey : key.toList with
  | nil => rfl
  | cons first rest =>
    rw [hkey, Bool.and_eq_true, Bool.and_eq_true, List.all_eq_true] at h
    obtain ⟨-, hfirst, hrest⟩ := h
    rw [List.any_eq_false]
    intro c hc
    rcases List.mem_cons.mp hc with rfl | hc
    · simpa using hletter c hfirst
    · have hthis := hrest c hc
      rw [Bool.or_eq_true, Bool.or_eq_true, beq_iff_eq] at hthis
      rcases hthis with (hthis | hthis) | rfl
      · simpa using hletter c hthis
      · simpa using hdigit c hthis
      · decide

section Accepted

variable {P : Platform} {schema : FormSchema} {payload answers : Map}

/-- What an accepted payload has been found to be. -/
theorem of_validate_submission (hschema : validate_schema P schema = .ok ())
    (h : validate_submission P schema payload = .ok answers) :
    answers = declaredAnswers schema payload ∧
      ∀ entry ∈ payload, (check_entry P schema entry).2 = [] := by
  unfold validate_submission at h
  dsimp only at h
  split at h
  · next hempty =>
    cases h
    have hnone := (List.append_eq_nil_iff.mp (List.isEmpty_iff.mp hempty)).1
    rw [List.flatMap_eq_nil_iff] at hnone
    have hentries : ∀ entry ∈ payload, (check_entry P schema entry).2 = [] :=
      fun entry hentry => hnone _ (List.mem_map_of_mem hentry)
    exact ⟨answers_eq hschema hentries, hentries⟩
  · cases h

/-- **What the column takes of what the validator accepts**: the payloads without U+0000. -/
theorem has_nul_answers_iff (hschema : validate_schema P schema = .ok ())
    (h : validate_submission P schema payload = .ok answers) :
    Map.has_nul answers = false ↔ payload.Storable := by
  obtain ⟨rfl, hentries⟩ := of_validate_submission hschema h
  rw [Map.has_nul_iff]
  constructor
  · intro hall entry hentry hkey
    cases hnull : entry.2.is_null with
    | true =>
      obtain ⟨key, value⟩ := entry
      cases value <;> first | rfl | cases hnull
    | false =>
      cases hfield : schema.field entry.1 with
      | none =>
        have hproblem := hentries entry hentry
        rw [check_entry_of_none hkey hfield] at hproblem
        cases hproblem
      | some field =>
        refine (hall entry (List.mem_filter.mpr ⟨hentry, ?_⟩)).2
        rw [hfield, hnull]
        rfl
  · intro hstorable entry hentry
    obtain ⟨hentry, hdeclared⟩ := List.mem_filter.mp hentry
    rw [Bool.and_eq_true, Option.isSome_iff_exists] at hdeclared
    obtain ⟨⟨field, hfield⟩, -⟩ := hdeclared
    obtain ⟨hmem, hkey⟩ := mem_of_field hfield
    refine ⟨?_, hstorable entry hentry ?_⟩
    · rw [← hkey]
      exact text_has_nul_of_is_valid_key (is_valid_key_of_validate_schema hschema hmem)
    · rw [← hkey]
      exact (rules_of_validate_schema hschema hmem).2

end Accepted

/-! ### What becomes of the submission -/

section Alone

variable {d : Deployment} {p : ℕ} {cs rest : ℕ → Choice} {db db' : Database} {w : World}
  {public_id : String} {payload answers : Map} {client : ClientInfo} {referer : Option String}
  {form : FormRecord} {row : SubmissionRecord} {event : Option OutboxEvent}
  {claimed : Option (List Uuid)} {y : Except FormError SubmissionAccepted}

/-- A row whose form and organization exist is refused for its answers alone. -/
theorem refused_eq {n : NewSubmission}
    (horganization : db.organizations.hasKey n.organization_id = true)
    (hform : db.forms.hasKey n.form_id = true) : n.refused db = if Map.has_nul n.data then
      some (.raised UNTRANSLATABLE_CHARACTER "unsupported Unicode escape sequence") else none := by
  unfold NewSubmission.refused
  rw [horganization, hform]
  rfl

/-- What the gates make of an accepted payload without files. -/
theorem admission_new_submission (hdb : FormsSound d.platform db) (hform : form ∈ db.forms.rows) :
    admission db (new_submission form payload answers client referer) [] =
      if Map.has_nul answers then .error (.internal
        (.raised UNTRANSLATABLE_CHARACTER "unsupported Unicode escape sequence"))
      else .ok (new_submission form payload answers client referer, none) := by
  have hrefused := refused_eq (n := new_submission form payload answers client referer)
    (hdb.owned form hform) (Table.hasKey_iff.mpr ⟨form, hform, rfl⟩)
  unfold admission
  have hdata : (new_submission form payload answers client referer).data = answers := rfl
  rw [if_pos List.isEmpty_nil, hrefused, hdata]
  cases Map.has_nul answers <;> rfl

theorem intake_of_validate_submission (hform : db.published public_id = .ok form)
    (haccepted : validate_submission d.platform form.schema payload = .ok answers) :
    intake d db public_id true payload = .ok (form, answers) := by
  unfold intake
  rw [hform]
  dsimp only
  rw [haccepted]
  rfl

/-- **An accepted payload is stored exactly if it is storable**, in every run and whatever else is
in flight: a submission without files that is within its form's budget is answered, and its
answers are in the database, if and only if no answer has a U+0000 in it. It comes to an end
unless somebody holds its form or its organization. -/
theorem stored_iff (hdb : FormsSound d.platform db)
    (hissued : ∀ row ∈ db.submissions.rows, row.id ∈ db.issued)
    (h : Reaches d anything (World.start db) w) (hform : w.shared.db.published public_id = .ok form)
    (haccepted : validate_submission d.platform form.schema payload = .ok answers)
    (hfiles : file_answers form.schema answers = []) (hbudget : (cs 1).id = 0) :
    (∀ y db' rest, (store d.platform).alone p
        (FormService.submit d public_id payload client referer) cs w.shared.db =
          some (y, db', rest) →
      ((∃ a, y = .ok a ∧ ∃ row ∈ db'.submissions.rows, row.id = a.id ∧ row.data = answers) ↔
        payload.Storable)) ∧
    (w.shared.db.unused (cs 3).id = true → w.shared.db.free p (.form form.id) .keyShare = true →
      w.shared.db.free p (.organization form.organization_id) .keyShare = true →
      ((store d.platform).alone p (FormService.submit d public_id payload client referer) cs
        w.shared.db).isSome = true) := by
  have hsound := formsSound_of_reaches hdb h
  have htraced := submissionsTraced_of_reaches hissued h
  obtain ⟨hmem, -⟩ := of_published hform
  have hnul := has_nul_answers_iff (hsound.checked form hmem) haccepted
  have hintake : intake d w.shared.db public_id ((cs 1).id == 0) payload = .ok (form, answers) := by
    rw [hbudget]
    exact intake_of_validate_submission hform haccepted
  have hadmission : admission w.shared.db (new_submission form payload answers client referer) [] =
      _ := admission_new_submission hsound hmem
  constructor
  · intro y db' rest hend
    rcases of_alone_submit hend with ⟨e, hrefused, -⟩ | ⟨form', answers', hpassed, hrest⟩
    · rw [hintake] at hrefused
      cases hrefused
    rw [hintake] at hpassed
    cases hpassed
    rw [hfiles, hadmission] at hrest
    rw [← hnul]
    cases hhas : Map.has_nul answers <;> rw [hhas] at hrest
    · rcases hrest with ⟨e, issued, herror, -⟩ | ⟨id, n, claimed, heq, hunused, rfl, rfl⟩
      · cases herror
      · cases heq
        have hfresh : w.shared.db.submissions.hasKey id = false := by
          rw [← Bool.not_eq_true]
          intro hkey
          obtain ⟨row, hrow, hid⟩ := Table.hasKey_iff.mp hkey
          exact of_decide_eq_true hunused (hid ▸ htraced.numbered row hrow)
        refine iff_of_true ⟨_, rfl, (new_submission form payload answers client referer).row id
          w.shared.db.clock, ?_, rfl, rfl⟩ rfl
        rw [stored_submissions]
        exact Table.mem_insertNew.mpr (.inr ⟨rfl, hfresh⟩)
    · rcases hrest with ⟨e, issued, herror, rfl, -⟩ | ⟨id, n, claimed, heq, -⟩
      · exact iff_of_false (fun ⟨_, h, _⟩ => nomatch h) Bool.noConfusion
      · cases heq
  · intro hunused hfree horganization
    rw [alone_submit_of_ok hintake]
    dsimp only
    rw [hfiles, if_pos List.isEmpty_nil, Option.isSome_map]
    exact isSome_alone_insert_submission hunused hfree horganization

end Alone

/-! ### A name with a U+0000 -/

theorem formsSound_sample : FormsSound .sample .sample where
  checked := by
    intro f hf
    obtain rfl : f = .sample := List.mem_singleton.mp hf
    decide +kernel
  owned := by
    intro f hf
    obtain rfl : f = .sample := List.mem_singleton.mp hf
    decide

/-- The answer to a form that asks for a name. -/
def named (name : String) : Map := [("name", .string name)]

/-- **A name with a U+0000 is accepted and not stored**: the insert fails, and so does the
request. -/
theorem not_stored : ¬ ∀ w, Reaches .sample anything (World.start .sample) w →
    ∀ payload answers, w.shared.db.published "contact" = .ok .sample →
      validate_submission .sample FormRecord.sample.schema payload = .ok answers →
      file_answers FormRecord.sample.schema answers = [] →
      ∀ y db' rest, (store .sample).alone 0
          (FormService.submit .sample "contact" payload ⟨none, none⟩ none) (fun _ => {})
            w.shared.db = some (y, db', rest) →
        ∃ a, y = .ok a ∧ ∃ row ∈ db'.submissions.rows, row.id = a.id ∧ row.data = answers := by
  intro hall
  obtain ⟨a, herror, -⟩ := hall (World.start .sample) .refl (named "\u0000") (named "\u0000") rfl
    (by rfl) (by rfl) _ _ _ (by rfl)
  cases herror

/-- A name without one is, also after somebody else's submission. -/
theorem stored_ada :
    let w := Deployment.sample.play anything
      ([.spawn 0 (.submit "contact" (named "Ben") ⟨none, none⟩ none), .step 0 {}, .step 0 {},
        .step 0 {}, .step 0 { id := 3 }, .step 0 {}, .step 0 {}] : List Step) .sample
    ∃ y db' rest, (store .sample).alone 1
        (FormService.submit .sample "contact" (named "Ada") ⟨none, none⟩ none) (fun _ => {})
          w.shared.db = some (y, db', rest) ∧
      ∃ a, y = .ok a ∧ ∃ row ∈ db'.submissions.rows, row.id = a.id ∧ row.data = named "Ada" := by
  intro w
  have hreach : Reaches .sample anything (World.start .sample) w :=
    Deployment.sample.reaches_play anything _ .sample
  obtain ⟨⟨y, db', rest⟩, hend⟩ : ∃ out, (store .sample).alone 1
      (FormService.submit .sample "contact" (named "Ada") ⟨none, none⟩ none) (fun _ => {})
        w.shared.db = some out := ⟨_, by rfl⟩
  refine ⟨y, db', rest, hend, ((stored_iff formsSound_sample ?_ hreach (by rfl) (by rfl) (by rfl)
    rfl).1 y db' rest hend).mpr ?_⟩
  · exact fun _ hrow => absurd hrow List.not_mem_nil
  · intro entry hentry _
    obtain rfl := List.mem_singleton.mp hentry
    rfl

end SubmitSnap
