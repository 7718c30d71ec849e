import SubmitSnap.Form.Storable

/-!
# A honeypot that does not show

Two payloads that differ under reserved keys only are two submissions that differ in their status
only. The validator skips a reserved key before it looks at the value, and no field has one; so both
payloads have the same answers, or the same problems. What follows is a function of the answers and
of the status, and nothing asks for the status: it is a column of the row, and that is all.

A comparison of two runs has to say what they have in common. `Filed` says it of one run, given the
parts that are shared.

## The argument

The two runs are not compared step by step. The first gate is a function of the unreserved part of
the payload, so both runs pass it with the same form and answers or are turned away alike
(`AgreeUnreserved.intake_eq`). Behind it, each run is described by itself in terms of things that
do not depend on the status (`filed_or_turned`), and both descriptions have the same parameters.

That a submission may have to wait is a part of the comparison: if somebody could see one of the
two wait for a lock that the other does not need, the honeypot would show after all
(`isSome_alone_submit`).

## Main definitions

* `AgreeUnreserved` — what the two payloads have in common.
* `Filed`, `Turned` — what a submission leaves behind.

## Main results

* `honeypot_invisible` — the comparison.
-/

namespace SubmitSnap

open Interleave
open FormService (new_submission)

/-! ### The payloads

Both passes of the validator skip reserved keys, so they see the unreserved part of the payload
and nothing else. That a payload is ordered, as `serde_json` keeps its objects, makes this part
the same list in both payloads and not only the same set. -/

/-- The payload is a JSON object as `serde_json` has it: a key has one value, and the keys are in
order. -/
def Map.Ordered (payload : Map) : Prop := payload.Pairwise fun entry entry' => entry.1 < entry'.1

/-- Under every key that is not reserved, the payloads have the same value or none. -/
def AgreeUnreserved (payload payload' : Map) : Prop :=
  ∀ key, starts_with key RESERVED_PREFIX = false → payload.get key = payload'.get key

/-- The honeypot has something in it, which is neither null nor a blank text. -/
def FillsHoneypot (payload : Map) : Prop :=
  ∃ value, payload.get HONEYPOT_FIELD = some value ∧ value.is_null = false ∧
    ∀ text, value = .string text → (trim text).isEmpty = false

/-- The entries that are not reserved. -/
def Map.unreserved (payload : Map) : Map :=
  payload.filter fun entry => !starts_with entry.1 RESERVED_PREFIX

section Payload

variable {P : Platform} {schema : FormSchema} {payload payload' : Map} {entry : String × Value}

theorem honeypot_was_filled_iff : honeypot_was_filled payload = true ↔ FillsHoneypot payload := by
  unfold honeypot_was_filled FillsHoneypot
  cases payload.get HONEYPOT_FIELD with
  | none => simp
  | some value => cases value <;> simp [Value.is_null]

theorem Map.Ordered.nodup (h : payload.Ordered) : (payload.map (·.1)).Nodup := by
  refine List.pairwise_map.mpr (h.imp fun {entry entry'} hlt heq => ?_)
  rw [heq] at hlt
  exact String.lt_irrefl _ hlt

theorem Map.Ordered.mem_iff (h : payload.Ordered) :
    entry ∈ payload ↔ payload.get entry.1 = some entry.2 :=
  ⟨get_of_mem h.nodup, mem_of_get⟩

/-- Payloads that agree have the same entries, but for the reserved ones. -/
theorem AgreeUnreserved.unreserved_eq (h : AgreeUnreserved payload payload')
    (hpayload : payload.Ordered) (hpayload' : payload'.Ordered) :
    payload.unreserved = payload'.unreserved := by
  have : Std.Irrefl fun entry entry' : String × Value => entry.1 < entry'.1 :=
    ⟨fun _ => String.lt_irrefl _⟩
  have : Std.Antisymm fun entry entry' : String × Value => entry.1 < entry'.1 :=
    ⟨fun _ _ hlt hgt => absurd hgt (String.lt_asymm hlt)⟩
  refine List.Pairwise.eq_of_mem_iff (hpayload.filter _) (hpayload'.filter _) fun entry => ?_
  unfold Map.unreserved
  rw [List.mem_filter, List.mem_filter]
  refine and_congr_left fun hkey => ?_
  rw [hpayload.mem_iff, hpayload'.mem_iff, h entry.1 (by simpa using hkey)]

/-- A reserved entry contributes nothing. -/
theorem flatMap_check_entry {α : Type} (f : Map × List String → List α) (hf : f ([], []) = []) :
    (payload.map (check_entry P schema)).flatMap f =
      (payload.unreserved.map (check_entry P schema)).flatMap f := by
  unfold Map.unreserved
  induction payload with
  | nil => rfl
  | cons entry payload ih =>
    rw [List.map_cons, List.flatMap_cons, ih, List.filter_cons]
    cases hkey : starts_with entry.1 RESERVED_PREFIX with
    | true =>
      rw [check_entry_of_reserved hkey, hf]
      rfl
    | false => rfl

/-- **The validator does not see the difference.** -/
theorem AgreeUnreserved.validate_submission_eq (h : AgreeUnreserved payload payload')
    (hpayload : payload.Ordered) (hpayload' : payload'.Ordered)
    (hschema : validate_schema P schema = .ok ()) :
    validate_submission P schema payload = validate_submission P schema payload' := by
  have hrequired : (schema.fields.flatMap fun field => problem
        (field.required && is_absent (payload.get field.key)) (field.key ++ " is required")) =
      schema.fields.flatMap fun field => problem
        (field.required && is_absent (payload'.get field.key)) (field.key ++ " is required") :=
    List.flatMap_congr fun field hfield => by
      rw [h field.key (rules_of_validate_schema hschema hfield).2]
  have hanswers : (payload.map (check_entry P schema)).flatMap (·.1) =
      (payload'.map (check_entry P schema)).flatMap (·.1) := by
    rw [flatMap_check_entry _ rfl, h.unreserved_eq hpayload hpayload', ← flatMap_check_entry _ rfl]
  have hproblems : (payload.map (check_entry P schema)).flatMap (·.2) =
      (payload'.map (check_entry P schema)).flatMap (·.2) := by
    rw [flatMap_check_entry _ rfl, h.unreserved_eq hpayload hpayload', ← flatMap_check_entry _ rfl]
  unfold validate_submission
  dsimp only
  rw [hanswers, hproblems, hrequired]

end Payload

/-! ### The two runs -/

section Alone

variable {d : Deployment} {P : Platform} {p : ℕ} {c : Choice} {cs cs₁ cs₂ rest₁ rest₂ : ℕ → Choice}
  {db db₁ db₂ db' : Database} {w : World} {public_id : String}
  {payload payload₁ payload₂ answers : Map} {client : ClientInfo} {referer : Option String}
  {form : FormRecord} {n : NewSubmission} {now : Timestamp} {status : SubmissionStatus}
  {files : List (String × String)} {y y₁ y₂ : Except FormError SubmissionAccepted}

/-- A submission that is turned away leaves no row behind. -/
structure Turned (db : Database) (e : FormError) (y : Except FormError SubmissionAccepted)
    (db' : Database) : Prop where
  answer : y = .error e
  unchanged : ∃ issued locks, db' = { db with issued := issued, locks := locks }

/-- What an accepted submission answers and leaves behind. All but its id and its status are given:
the form, the row and the event to be filled in, and the uploads it claims. -/
structure Filed (db : Database) (p : ℕ) (form : FormRecord) (row : SubmissionRecord)
    (event : Option OutboxEvent) (claimed : Option (List Uuid)) (payload : Map)
    (y : Except FormError SubmissionAccepted) (db' : Database) : Prop where
  exists_id : ∃ id status, y = .ok ⟨id, form.success_message, form.redirect_url⟩ ∧
    db' = db.stored p { row with id := id, status := status }
      (event.map fun e => { e with id := id, submission_id := id }) claimed ∧
    { row with id := id, status := status } ∈ db'.submissions.rows ∧
    (status = .spam ↔ form.honeypot_enabled = true ∧ FillsHoneypot payload) ∧
    (status = .spam ∨ status = .unread)

/-- The gates do not ask for the status. -/
theorem admission_status : admission db { n with status := status } files =
    (admission db n files).map fun admitted =>
      ({ admitted.1 with status := status }, admitted.2) := by
  have hrefused : ∀ n : NewSubmission,
      NewSubmission.refused db { n with status := status } = n.refused db := fun _ => rfl
  unfold admission
  dsimp only
  rw [hrefused]
  split
  · cases n.refused db <;> rfl
  · cases check_file_references (db.recorded n.form_id (files.map (·.2))) files with
    | error e => rfl
    | ok metadata =>
      dsimp only
      cases n.refused db with
      | some e => rfl
      | none =>
        dsimp only
        split <;> rfl

/-- A submission before anything is known about the honeypot. -/
def unfiled (form : FormRecord) (answers : Map) (client : ClientInfo) (referer : Option String) :
    NewSubmission :=
  { new_submission form [] answers client referer with status := .unread }

theorem new_submission_eq : new_submission form payload answers client referer =
    { unfiled form answers client referer with
      status := if form.honeypot_enabled && honeypot_was_filled payload then .spam else .unread } :=
  rfl

/-- **One submission that has passed the first gate**, but for its id and its status. -/
theorem filed_or_turned (hissued : ∀ row ∈ db.submissions.rows, row.id ∈ db.issued)
    (hintake : intake d db public_id ((cs 1).id == 0) payload = .ok (form, answers))
    (h : (store d.platform).alone p (FormService.submit d public_id payload client referer) cs db =
      some (y, db', rest₁)) :
    match admission db (unfiled form answers client referer) (file_answers form.schema answers) with
    | .error e => Turned db e y db'
    | .ok (n, claimed) =>
      Filed db p form (n.row 0 db.clock) (n.queued db 0 db.clock) claimed payload y db' := by
  rcases of_alone_submit h with ⟨e, hrefused, -⟩ | ⟨form', answers', hpassed, hrest⟩
  · rw [hintake] at hrefused
    cases hrefused
  rw [hintake] at hpassed
  cases hpassed
  rw [new_submission_eq, admission_status] at hrest
  cases hadmission : admission db (unfiled form answers client referer)
      (file_answers form.schema answers) with
  | error e =>
    rw [hadmission] at hrest
    rcases hrest with ⟨e', issued, heq, rfl, rfl⟩ | ⟨id, n, claimed, heq, -⟩ <;> cases heq
    exact ⟨rfl, issued, _, rfl⟩
  | ok admitted =>
    obtain ⟨n, claimed⟩ := admitted
    rw [hadmission] at hrest
    rcases hrest with ⟨e, issued, heq, -⟩ | ⟨id, n', claimed', heq, hunused, rfl, rfl⟩ <;> cases heq
    have hfresh : db.submissions.hasKey id = false := by
      rw [← Bool.not_eq_true]
      intro hkey
      obtain ⟨row, hrow, hid⟩ := Table.hasKey_iff.mp hkey
      exact of_decide_eq_true hunused (hid ▸ hissued row hrow)
    have hqueued : n.queued db id db.clock = (n.queued db 0 db.clock).map
        fun e => { e with id := id, submission_id := id } := by
      unfold NewSubmission.queued
      split <;> rfl
    refine ⟨id, _, rfl, congrArg (fun event => db.stored p _ event claimed) hqueued, ?_, ?_, ?_⟩
    · rw [stored_submissions]
      exact Table.mem_insertNew.mpr (.inr ⟨rfl, hfresh⟩)
    · rw [← honeypot_was_filled_iff, ← Bool.and_eq_true]
      cases form.honeypot_enabled && honeypot_was_filled payload <;> simp
    · cases form.honeypot_enabled && honeypot_was_filled payload <;> simp

/-- The first gate does not see the difference. -/
theorem AgreeUnreserved.intake_eq (hdb : FormsSound d.platform db)
    (h : AgreeUnreserved payload₁ payload₂) (h₁ : payload₁.Ordered) (h₂ : payload₂.Ordered)
    (allowed : Bool) :
    intake d db public_id allowed payload₁ = intake d db public_id allowed payload₂ := by
  unfold intake
  cases hform : db.published public_id with
  | error e => rfl
  | ok form =>
    dsimp only
    rw [h.validate_submission_eq h₁ h₂ (hdb.checked form (of_published hform).1)]

/-! #### Waiting -/

/-- A row is inserted as it is filed, and waits for the same locks. -/
theorem run_insert_status :
    (SubmissionStmt.insert { n with status := status } now).run p c db =
      ((SubmissionStmt.insert n now).run p c db).map fun out =>
        (out.1, out.2.map fun stored => ({ stored.1 with status := status }, stored.2)) := by
  simp only [SubmissionStmt.run]
  (repeat' split) <;> rfl

theorem isSome_insert_status {ε α : Type} [Raises Failure ε]
    {f g : SubmissionRecord × Option OutboxEvent → Code ε α}
    (h : ∀ row event s', ((store P).alone p (f ({ row with status := status }, event))
        (fun n => cs (n + 1)) s').isSome =
      ((store P).alone p (g (row, event)) (fun n => cs (n + 1)) s').isSome) :
    ((store P).alone p (ask (.submissions (.insert { n with status := status } now)) >>= f) cs
        db).isSome =
      ((store P).alone p (ask (.submissions (.insert n now)) >>= g) cs db).isSome := by
  change (((SubmissionStmt.insert { n with status := status } now).run p (cs 0) db).bind _).isSome =
    (((SubmissionStmt.insert n now).run p (cs 0) db).bind _).isSome
  rw [run_insert_status]
  cases (SubmissionStmt.insert n now).run p (cs 0) db with
  | none => rfl
  | some out =>
    obtain ⟨s', x⟩ := out
    cases x with
    | ok stored => exact h stored.1 stored.2 s'
    | error x => rfl

theorem isSome_insert_submission_status :
    ((store P).alone p (FormService.insert_submission { n with status := status }) cs db).isSome =
      ((store P).alone p (FormService.insert_submission n) cs db).isSome := by
  unfold FormService.insert_submission
  rw [alone_transaction, alone_transaction, Option.isSome_map, Option.isSome_map]
  exact isSome_insert_status fun row event s' => rfl

theorem isSome_insert_claiming_files_status :
    ((store P).alone p (FormService.insert_claiming_files { n with status := status } files) cs
        db).isSome =
      ((store P).alone p (FormService.insert_claiming_files n files) cs db).isSome := by
  unfold FormService.insert_claiming_files
  dsimp only
  rw [alone_transaction, alone_transaction, Option.isSome_map, Option.isSome_map]
  refine Store.isSome_alone_query_bind fun recorded s₁ _ => ?_
  cases check_file_references recorded files with
  | error e => rfl
  | ok metadata =>
    refine isSome_insert_status (n := { n with files := some metadata }) fun row event s₂ => ?_
    refine Store.isSome_alone_query_bind fun claimed s₃ _ => ?_
    split <;> rfl

/-- A submission waits for the same locks, whatever is in the honeypot. -/
theorem isSome_alone_submit (h : ∀ allowed, intake d db public_id allowed payload₁ =
    intake d db public_id allowed payload₂) :
    ((store d.platform).alone p (FormService.submit d public_id payload₁ client referer) cs
        db).isSome =
      ((store d.platform).alone p (FormService.submit d public_id payload₂ client referer) cs
        db).isSome := by
  have hsame := h ((cs 1).id == 0)
  cases hintake : intake d db public_id ((cs 1).id == 0) payload₂ with
  | error e =>
    obtain ⟨rest₁, h₁⟩ := alone_submit_of_error (p := p) client referer
      (hsame.trans hintake)
    obtain ⟨rest₂, h₂⟩ := alone_submit_of_error (p := p) client referer hintake
    rw [h₁, h₂]
    rfl
  | ok passed =>
    obtain ⟨form, answers⟩ := passed
    rw [alone_submit_of_ok (hsame.trans hintake), alone_submit_of_ok hintake]
    dsimp only
    rw [Option.isSome_map, Option.isSome_map, new_submission_eq, new_submission_eq]
    split
    · exact isSome_insert_submission_status.trans isSome_insert_submission_status.symm
    · exact isSome_insert_claiming_files_status.trans isSome_insert_claiming_files_status.symm

/-! #### The comparison -/

/-- **The honeypot does not show.** Take two submissions to one form on one reachable database, by
one client and with the rate limiter in one state, whose payloads agree under the keys that are not
reserved. They wait for the same statements. If they end, both are turned away with the same error,
or both are accepted, with the same answer, row, event and uploads, but for the id; and only the
status says whether the honeypot was filled. -/
theorem honeypot_invisible (hdb : FormsSound d.platform db)
    (hissued : ∀ row ∈ db.submissions.rows, row.id ∈ db.issued)
    (h : Reaches d anything (World.start db) w) (hagree : AgreeUnreserved payload₁ payload₂)
    (hpayload₁ : payload₁.Ordered) (hpayload₂ : payload₂.Ordered) :
    (∀ cs, ((store d.platform).alone p (FormService.submit d public_id payload₁ client referer) cs
          w.shared.db).isSome =
        ((store d.platform).alone p (FormService.submit d public_id payload₂ client referer) cs
          w.shared.db).isSome) ∧
    ∀ cs₁ cs₂ y₁ y₂ db₁ db₂ rest₁ rest₂, ((cs₁ 1).id = 0 ↔ (cs₂ 1).id = 0) →
      (store d.platform).alone p (FormService.submit d public_id payload₁ client referer) cs₁
        w.shared.db = some (y₁, db₁, rest₁) →
      (store d.platform).alone p (FormService.submit d public_id payload₂ client referer) cs₂
        w.shared.db = some (y₂, db₂, rest₂) →
      (∃ e, Turned w.shared.db e y₁ db₁ ∧ Turned w.shared.db e y₂ db₂) ∨
      ∃ form row event claimed, w.shared.db.published public_id = .ok form ∧
        Filed w.shared.db p form row event claimed payload₁ y₁ db₁ ∧
        Filed w.shared.db p form row event claimed payload₂ y₂ db₂ := by
  have hsound := formsSound_of_reaches hdb h
  have htraced := submissionsTraced_of_reaches hissued h
  have hsame : ∀ allowed, intake d w.shared.db public_id allowed payload₁ =
      intake d w.shared.db public_id allowed payload₂ :=
    hagree.intake_eq hsound hpayload₁ hpayload₂
  refine ⟨fun cs => isSome_alone_submit hsame,
    fun cs₁ cs₂ y₁ y₂ db₁ db₂ rest₁ rest₂ hlimit h₁ h₂ => ?_⟩
  have hallowed : ((cs₁ 1).id == 0) = ((cs₂ 1).id == 0) := by
    rw [Bool.eq_iff_iff, beq_iff_eq, beq_iff_eq, hlimit]
  cases hintake : intake d w.shared.db public_id ((cs₂ 1).id == 0) payload₂ with
  | error e =>
    have hintake₁ := ((hsame _).trans (hallowed ▸ hintake) :
      intake d w.shared.db public_id ((cs₁ 1).id == 0) payload₁ = .error e)
    obtain ⟨rest, hend₁⟩ := alone_submit_of_error (p := p) client referer hintake₁
    obtain ⟨rest, hend₂⟩ := alone_submit_of_error (p := p) client referer hintake
    rw [hend₁] at h₁
    rw [hend₂] at h₂
    cases h₁
    cases h₂
    exact .inl ⟨e, ⟨rfl, _, _, rfl⟩, rfl, _, _, rfl⟩
  | ok passed =>
    obtain ⟨form, answers⟩ := passed
    have hintake₁ := ((hsame _).trans (hallowed ▸ hintake) :
      intake d w.shared.db public_id ((cs₁ 1).id == 0) payload₁ = .ok (form, answers))
    have hend₁ := filed_or_turned htraced.numbered hintake₁ h₁
    have hend₂ := filed_or_turned htraced.numbered hintake h₂
    cases hadmission : admission w.shared.db (unfiled form answers client referer)
        (file_answers form.schema answers) with
    | error e =>
      rw [hadmission] at hend₁ hend₂
      exact .inl ⟨e, hend₁, hend₂⟩
    | ok admitted =>
      obtain ⟨n, claimed⟩ := admitted
      rw [hadmission] at hend₁ hend₂
      exact .inr ⟨form, _, _, claimed, published_of_intake hintake, hend₁, hend₂⟩

end Alone

/-- A bot that fills the honeypot, and somebody who does not. -/
theorem honeypot_invisible_sample :
    let submit := fun payload cs => (store .sample).alone 0
      (FormService.submit .sample "contact" payload ⟨none, none⟩ none) cs Database.sample
    ∃ y₁ db₁ rest₁ y₂ db₂ rest₂ form row event claimed,
      submit [("_gotcha", .string "x"), ("name", .string "Ada")] (fun _ => {}) =
        some (y₁, db₁, rest₁) ∧
      submit [("name", .string "Ada")] (fun n => { id := 5 * (n - 1) }) = some (y₂, db₂, rest₂) ∧
      Filed .sample 0 form row event claimed
        [("_gotcha", .string "x"), ("name", .string "Ada")] y₁ db₁ ∧
      Filed .sample 0 form row event claimed [("name", .string "Ada")] y₂ db₂ := by
  intro submit
  have hstart : Reaches .sample anything (World.start .sample) (World.start .sample) := .refl
  obtain ⟨⟨y₁, db₁, rest₁⟩, h₁⟩ : ∃ out, submit [("_gotcha", .string "x"), ("name", .string "Ada")]
      (fun _ => {}) = some out := ⟨_, by rfl⟩
  obtain ⟨⟨y₂, db₂, rest₂⟩, h₂⟩ : ∃ out, submit [("name", .string "Ada")]
      (fun n => { id := 5 * (n - 1) }) = some out := ⟨_, by rfl⟩
  have hagree : AgreeUnreserved [("_gotcha", .string "x"), ("name", .string "Ada")]
      [("name", .string "Ada")] := by
    intro key hkey
    unfold Map.get
    rw [List.lookup_cons, beq_eq_false_iff_ne.mpr]
    rintro rfl
    revert hkey
    decide
  rcases (honeypot_invisible formsSound_sample (fun _ hrow => absurd hrow List.not_mem_nil) hstart
      hagree (List.pairwise_pair.mpr (by decide)) (List.pairwise_singleton _ _)).2 _ _ _ _ _ _ _ _
      (iff_of_true rfl rfl) h₁ h₂ with ⟨e, hturned, -⟩ | ⟨form, row, event, claimed, -, hfiled⟩
  · rw [hturned.answer] at h₁
    cases h₁
  · exact ⟨y₁, db₁, rest₁, y₂, db₂, rest₂, form, row, event, claimed, h₁, h₂, hfiled⟩

end SubmitSnap
