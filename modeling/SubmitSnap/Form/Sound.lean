import SubmitSnap.Form.Definition
import SubmitSnap.Form.Submit
import SubmitSnap.Workers

/-!
# What every reachable database has

Facts about forms and submissions that hold throughout every run, whichever of the requests arrive:
a stored definition has passed its check, a form belongs to an organization that exists, and a
submission is the row that some `INSERT` answered, under an id of its own. The first takes a look at
the scripts, since it is the service that checks; the second is the database's foreign key; the
third is how `gen_random_uuid()` and a commit work together.

## The argument

`SubmissionsTraced` looks stronger than what is wanted of it, and has to be. That a stored row is
what some `INSERT` answered needs that no two of them were answered the same id, which needs that
every id which was answered or stored has been issued, so that the next one is new. Each clause is
preserved by appeal to the others (`SubmissionsTraced.effect`).

A definition is checked by the service before it is written, a few statements earlier. Nothing can
happen to it in between since it is not in the database yet: it is a value the process carries. So
the check is a fact about the script and needs no invariant.

## Main definitions

* `FormsSound` — the facts.
* `SubmissionsTraced` — where the rows of `submissions` come from.

## Main results

* `formsSound_of_reaches`, `submissionsTraced_of_reaches` — they hold in every run.
-/

namespace SubmitSnap

open Interleave
open Interleave.Script

/-- Any requests, in any order; statements may fail and processes stop. -/
abbrev anything : Regime := Regime.free fun _ => True

/-- The stored definitions are checked, and their forms have an organization. -/
structure FormsSound (P : Platform) (db : Database) : Prop where
  checked : ∀ f ∈ db.forms.rows, validate_schema P f.schema = .ok ()
  owned : ∀ f ∈ db.forms.rows, db.organizations.hasKey f.organization_id = true

/-- The same submission, whatever has become of its status. -/
def SubmissionRecord.Same (row row' : SubmissionRecord) : Prop :=
  { row with status := row'.status } = row'

/-- What an `INSERT INTO submissions` has answered. -/
def inserted : Event → Option (SubmissionRecord × Option OutboxEvent)
  | ⟨_, _, _, .submissions (.insert _ _), .ok answer⟩ => some answer
  | _ => none

/-- The commit writes an outbox event. -/
def writesEvent (ev : OutboxEvent) : Event → Prop
  | ⟨_, _, _, .commit writes, .ok _⟩ => Write.outbox_event ev ∈ writes
  | _ => False

/-- Every row of `submissions` has an id that has been generated. No id was answered twice, and a
row with an answered id is of the form it was inserted for. An event is written by whom it was
answered, as it was answered, and is about the submission it was answered with.

An answered row need not be stored, as the process may stop before its commit. That is why the
clauses speak of answers in the log and of rows in the table separately. -/
structure SubmissionsTraced (s : State) : Prop where
  numbered : ∀ row ∈ s.db.submissions.rows, row.id ∈ s.db.issued
  issued : ∀ e ∈ s.log, ∀ answer, inserted e = some answer → answer.1.id ∈ s.db.issued
  once : ∀ e ∈ s.log, ∀ e' ∈ s.log, ∀ answer answer', inserted e = some answer →
    inserted e' = some answer' → answer.1.id = answer'.1.id → answer = answer' ∧ e.pid = e'.pid
  traced : ∀ row ∈ s.db.submissions.rows, ∀ e ∈ s.log, ∀ answer, inserted e = some answer →
    answer.1.id = row.id → row.form_id = answer.1.form_id
  about : ∀ e ∈ s.log, ∀ answer, inserted e = some answer →
    ∀ ev ∈ answer.2, ev.submission_id = answer.1.id ∧ ev.id = answer.1.id
  written : ∀ e ∈ s.log, ∀ ev, writesEvent ev e →
    ∃ e' ∈ s.log, e'.pid = e.pid ∧ ∃ row, inserted e' = some (row, some ev)

/-! ### The same submission -/

namespace SubmissionRecord.Same

variable {row row' row'' : SubmissionRecord}

theorem refl (row : SubmissionRecord) : row.Same row := rfl

theorem trans (h : row.Same row') (h' : row'.Same row'') : row.Same row'' := by
  rw [← h', ← h]
  rfl

theorem symm (h : row.Same row') : row'.Same row := by
  rw [← h]
  rfl

theorem id (h : row.Same row') : row.id = row'.id := by rw [← h]

theorem form_id (h : row.Same row') : row.form_id = row'.form_id := by rw [← h]

theorem data (h : row.Same row') : row.data = row'.data := by rw [← h]

theorem place (h : row.Same row') : row.place = row'.place := by
  rw [← h]
  rfl

end SubmissionRecord.Same

/-! ### What a statement does

Two facts about organizations are needed besides: they go by a deletion only, and a deletion takes
their forms along. So a form never outlives its organization. -/

section Statement

variable {P : Platform} {d : Deployment} {p : ℕ} {r : Request} {c : Choice} {q : Stmt}
  {x : Except Failure q.Reply} {s s' : State} {db db' : Database} {G : Regime}

/-- No commit deletes an organization. -/
theorem hasKey_applyAll {o : Uuid} {ws : List Write} (ho : db.organizations.hasKey o = true) :
    (Write.applyAll db ws).organizations.hasKey o = true := by
  induction ws generalizing db with
  | nil => exact ho
  | cons w ws ih =>
    refine ih ?_
    cases w with
    | organization row =>
      obtain ⟨org, horg, hid⟩ := Table.hasKey_iff.mp ho
      exact Table.hasKey_iff.mpr ⟨org, Table.mem_insertNew_of_mem horg, hid⟩
    | _ => exact ho

/-- An organization is there until it is deleted. -/
theorem Stmt.organization_kept {o : Uuid} (hq : q ≠ .organizations (.delete o))
    (h : q.run P p c db = some (db', x)) (ho : db.organizations.hasKey o = true) :
    db'.organizations.hasKey o = true := by
  cases q with
  | organizations q =>
    cases q with
    | delete id =>
      simp only [Stmt.run, OrganizationStmt.run] at h
      split at h <;> cases h
      obtain ⟨org, horg, rfl⟩ := Table.hasKey_iff.mp ho
      refine Table.hasKey_iff.mpr ⟨org, Table.mem_deleteWhere.mpr ⟨horg, ?_⟩, rfl⟩
      exact beq_eq_false_iff_ne.mpr fun heq => hq (by rw [heq])
    | rename id name =>
      simp only [Stmt.run, OrganizationStmt.run] at h
      (repeat' split at h) <;> cases h
      · exact ho
      · rw [Table.hasKey_updateWhere]
        exact ho
    | insert_organization _ _ | insert_owner _ _ _ | access _ _ | lock _ | role_of _ _
    | member_of _ _ | upsert_member _ _ _ _ | remove_member _ _ | owner_count _ =>
      simp only [Stmt.run, OrganizationStmt.run] at h
      (repeat' split at h) <;> cases h <;> exact ho
  | commit ws =>
    cases h
    exact hasKey_applyAll ho
  | _ =>
    have hsame : db'.organizations = db.organizations := Stmt.footprint .organizations rfl h
    rwa [hsame]

/-- A form is of the organization it was of, or is new in one that exists. -/
theorem Stmt.form_owner (h : q.run P p c db = some (db', x)) {f' : FormRecord}
    (hf' : f' ∈ db'.forms.rows) :
    (∃ f ∈ db.forms.rows, f.organization_id = f'.organization_id) ∨
      db.organizations.hasKey f'.organization_id = true := by
  by_cases hforms : ∃ q', q = .forms q'
  · obtain ⟨q', rfl⟩ := hforms
    cases q' with
    | create organization_id name public_id schema notify_emails =>
      simp only [Stmt.run, FormStmt.run] at h
      split at h
      · split at h
        · cases h
          exact .inl ⟨f', hf', rfl⟩
        · split at h
          · cases h
            exact .inl ⟨f', hf', rfl⟩
          · split at h
            · cases h
              exact .inl ⟨f', hf', rfl⟩
            · next horganization =>
              cases h
              rcases Table.mem_insertNew.mp hf' with hf' | ⟨rfl, -⟩
              · exact .inl ⟨f', hf', rfl⟩
              · exact .inr (by simpa using horganization)
      · cases h
    | replace_definition _ _ _ _ _ _ _ _ _ | set_status _ _ _ | set_public_id _ _ _ =>
      simp only [Stmt.run, FormStmt.run] at h
      (repeat' split at h) <;> cases h <;>
        first
          | exact .inl ⟨f', hf', rfl⟩
          | (obtain ⟨f, hf, ⟨-, heq⟩ | ⟨-, heq⟩⟩ := Table.of_mem_updateWhere hf' <;>
              exact .inl ⟨f, hf, heq ▸ rfl⟩)
    | delete organization_id id =>
      simp only [Stmt.run, FormStmt.run] at h
      (repeat' split at h) <;> cases h
      · exact .inl ⟨f', hf', rfl⟩
      · exact .inl ⟨f', Database.cascadeForm_forms _ hf', rfl⟩
    | find _ _ | find_by_public_id _ =>
      cases h
      exact .inl ⟨f', hf', rfl⟩
  · exact .inl ⟨f', Stmt.forms_subset (fun q' hq' => hforms ⟨q', hq'⟩) h hf', rfl⟩

/-- A deleted organization takes its forms with it. -/
theorem organization_of_cascade {o : Uuid} {f : FormRecord}
    (hf : f ∈ (db.cascadeOrganization o).forms.rows) : f.organization_id ≠ o := by
  intro heq
  have hgone := (Table.mem_deleteWhere.mp hf).2
  have hmem := (Table.mem_deleteWhere.mp hf).1
  have hwhere : db.formsWhere (fun f => f.organization_id == o) f.id = true :=
    List.any_eq_true.mpr ⟨f, hmem, by simp [heq]⟩
  rw [hwhere] at hgone
  cases hgone

theorem cascadeForm_submissions {gone : Uuid → Bool} {row : SubmissionRecord}
    (h : row ∈ (db.cascadeForm gone).submissions.rows) : row ∈ db.submissions.rows :=
  (Table.mem_deleteWhere.mp h).1

theorem cascadeOrganization_submissions {o : Uuid} {row : SubmissionRecord}
    (h : row ∈ (db.cascadeOrganization o).submissions.rows) : row ∈ db.submissions.rows :=
  cascadeForm_submissions (Table.mem_deleteWhere.mp h).1

/-- Every statement keeps the facts, if definitions are checked. -/
theorem FormsSound.run (hs : FormsSound d.platform s.db) (hpre : DefinitionPre d p s q)
    (h : q.run d.platform p c s.db = some (db', x)) : FormsSound d.platform db' where
  checked := by
    intro f' hf'
    cases Stmt.form_made h hf' with
    | kept hf => exact hs.checked f' hf
    | created _ _ hschema _ _ _ =>
      rw [hschema]
      exact hpre
    | replaced _ _ _ _ hschema _ _ _ =>
      obtain ⟨loaded, wanted, -, hcheck, -, hwanted, -, -⟩ := hpre
      rw [hschema, ← hwanted]
      exact (check_update_iff.mp hcheck).1.schema
    | @moved _ _ _ f _ hf _ _ _ hschema _ _ _ =>
      rw [hschema]
      exact hs.checked f hf
    | @handled _ _ _ f hf => exact hs.checked f hf
  owned := by
    intro f' hf'
    have howned : s.db.organizations.hasKey f'.organization_id = true := by
      rcases Stmt.form_owner h hf' with ⟨f, hf, heq⟩ | howned
      · rw [← heq]
        exact hs.owned f hf
      · exact howned
    refine Stmt.organization_kept (fun heq => ?_) h howned
    subst heq
    simp only [Stmt.run, OrganizationStmt.run] at h
    split at h <;> cases h
    exact organization_of_cascade hf' rfl

/-! ### Where submissions come from -/

/-- Rows of `submissions` are written by commits, under new ids; nothing else puts them there or
changes more than their status. -/
theorem Stmt.submission_origin (h : q.run P p c db = some (db', x)) {row' : SubmissionRecord}
    (hrow' : row' ∈ db'.submissions.rows) :
    (∃ row ∈ db.submissions.rows, row.Same row') ∨
      ∃ ws, q = .commit ws ∧ Write.submission row' ∈ ws ∧
        db.submissions.hasKey row'.id = false := by
  have kept : row' ∈ db.submissions.rows → (∃ row ∈ db.submissions.rows, row.Same row') ∨
      ∃ ws, q = .commit ws ∧ Write.submission row' ∈ ws ∧
        db.submissions.hasKey row'.id = false := fun hrow => .inl ⟨row', hrow, .refl row'⟩
  cases hreach : Part.submissions.reachedBy q with
  | false =>
    have hsame : db'.submissions = db.submissions := Stmt.footprint .submissions hreach h
    exact kept (hsame ▸ hrow')
  | true =>
    cases q with
    | submissions q =>
      cases q with
      | delete organization_id id =>
        simp only [Stmt.run, SubmissionStmt.run] at h
        (repeat' split at h) <;> cases h
        · exact kept hrow'
        · exact kept (Table.mem_deleteWhere.mp hrow').1
      | set_status organization_id id status =>
        simp only [Stmt.run, SubmissionStmt.run] at h
        split at h <;> cases h
        obtain ⟨row, hrow, ⟨-, rfl⟩ | ⟨-, rfl⟩⟩ := Table.of_mem_updateWhere hrow'
        · exact .inl ⟨row, hrow, rfl⟩
        · exact kept hrow
      | insert n now =>
        simp only [Stmt.run, SubmissionStmt.run] at h
        (repeat' split at h) <;> cases h <;> exact kept hrow'
      | find _ _ | page_after _ _ _ | distinct_answer_keys _ =>
        cases h
        exact kept hrow'
    | forms q =>
      cases q with
      | delete organization_id id =>
        simp only [Stmt.run, FormStmt.run] at h
        (repeat' split at h) <;> cases h
        · exact kept hrow'
        · exact kept (cascadeForm_submissions hrow')
      | _ => cases hreach
    | organizations q =>
      cases q with
      | delete id =>
        simp only [Stmt.run, OrganizationStmt.run] at h
        split at h <;> cases h
        exact kept (cascadeOrganization_submissions hrow')
      | _ => cases hreach
    | commit ws =>
      cases h
      exact (mem_applyAll_submissions hrow').elim kept fun hws => .inr ⟨ws, rfl, hws⟩
    | _ => cases hreach

/-- The one answer of a statement that inserts a submission has an id that is new. -/
theorem id_of_inserted {before : Database} {answer : SubmissionRecord × Option OutboxEvent}
    (h : q.run P p c db = some (db', x))
    (hanswer : inserted ⟨p, r, before, q, x⟩ = some answer) :
    answer.1.id ∉ db.issued ∧ db'.issued = answer.1.id :: db.issued ∧
      ∀ ev ∈ answer.2, ev.submission_id = answer.1.id ∧ ev.id = answer.1.id := by
  unfold inserted at hanswer
  split at hanswer
  · next heq =>
    cases heq
    cases hanswer
    rcases of_run_insert h with ⟨e, -, heq, -⟩ | ⟨-, hunused, heq, rfl⟩ <;> cases heq
    refine ⟨of_decide_eq_true hunused, rfl, fun ev hev => ?_⟩
    dsimp only [NewSubmission.queued] at hev
    split at hev <;> cases hev
    exact ⟨rfl, rfl⟩
  · cases hanswer

theorem inserted_error {e : Failure} : inserted ⟨p, r, db, q, .error e⟩ = none := by
  unfold inserted
  split
  · next heq => cases heq
  · rfl

theorem not_writesEvent_error {e : Failure} {ev : OutboxEvent} :
    ¬ writesEvent ev ⟨p, r, db, q, .error e⟩ := by
  unfold writesEvent
  split
  · next heq => cases heq
  · exact id

theorem of_writesEvent {ev : OutboxEvent} (h : writesEvent ev ⟨p, r, db, q, x⟩) :
    ∃ writes, q = .commit writes ∧ Write.outbox_event ev ∈ writes := by
  unfold writesEvent at h
  split at h
  · next heq =>
    cases heq
    exact ⟨_, rfl, h⟩
  · exact h.elim

/-- `p` has written no outbox event yet. -/
def Uncommitted (p : ℕ) (log : List Event) : Prop :=
  ∀ e ∈ log, e.pid = p → ∀ ev, ¬ writesEvent ev e

/-- A commit stores only what an `INSERT` has answered, and the one event of its own. -/
def StoredPre (p : ℕ) (s : State) : Stmt → Prop
  | .commit writes =>
    (∀ row, Write.submission row ∈ writes → ∃ e ∈ s.log, ∃ event,
      inserted e = some (row, event)) ∧
    ∀ ev, Write.outbox_event ev ∈ writes → Uncommitted p s.log ∧
      ∃ e ∈ s.log, e.pid = p ∧ ∃ row, inserted e = some (row, some ev)
  | _ => True

/-- Every statement keeps track, if commits store what was answered. An id that is answered now
has not been issued, so it differs from those of all earlier answers and of all rows. A row that
is stored now was answered to somebody, and by `once` no other answer has its id. -/
theorem SubmissionsTraced.effect (hs : SubmissionsTraced s) (hpre : StoredPre p s q)
    (h : G.Effect (store P) p r q s x s') : SubmissionsTraced s' := by
  cases h with
  | @fail failure _ =>
    have hnone : ∀ e ∈ (⟨p, r, s.db, q, .error failure⟩ :: s.log : List Event), ∀ answer,
        inserted e = some answer → e ∈ s.log := by
      intro e he answer hanswer
      rcases List.mem_cons.mp he with rfl | he
      · rw [inserted_error] at hanswer
        cases hanswer
      · exact he
    refine ⟨hs.numbered, fun e he answer h => hs.issued e (hnone e he answer h) answer h,
      fun e he e' he' answer answer' h h' => hs.once e (hnone e he answer h) e'
        (hnone e' he' answer' h') answer answer' h h',
      fun row hrow e he answer h => hs.traced row hrow e (hnone e he answer h) answer h,
      fun e he answer h => hs.about e (hnone e he answer h) answer h, fun e he ev hev => ?_⟩
    rcases List.mem_cons.mp he with rfl | he
    · exact (not_writesEvent_error hev).elim
    · obtain ⟨e', he', hanswer⟩ := hs.written e he ev hev
      exact ⟨e', List.mem_cons_of_mem _ he', hanswer⟩
  | @run c db' x _ hrun =>
    obtain ⟨new, hissued⟩ := Stmt.issued_mono hrun
    have hmono : ∀ {n}, n ∈ s.db.issued → n ∈ db'.issued := fun hn =>
      hissued ▸ List.mem_append_right _ hn
    -- An id that is answered now was not there before.
    have hfresh : ∀ answer, inserted ⟨p, r, s.db, q, x⟩ = some answer →
        answer.1.id ∉ s.db.issued ∧ answer.1.id ∈ db'.issued := fun answer hanswer => by
      obtain ⟨hnew, heq, -⟩ := id_of_inserted hrun hanswer
      exact ⟨hnew, heq ▸ List.mem_cons_self⟩
    refine ⟨fun row' hrow' => ?_, fun e he answer hanswer => ?_,
      fun e he e' he' answer answer' hanswer hanswer' hid => ?_,
      fun row' hrow' e he answer hanswer hid => ?_, fun e he answer hanswer => ?_,
      fun e he ev hev => ?_⟩
    · rcases Stmt.submission_origin hrun hrow' with ⟨row, hrow, hsame⟩ | ⟨ws, rfl, hws, -⟩
      · exact hsame.id ▸ hmono (hs.numbered row hrow)
      · obtain ⟨e, he, event, hanswer⟩ := hpre.1 row' hws
        exact hmono (hs.issued e he _ hanswer)
    · rcases List.mem_cons.mp he with rfl | he
      · exact (hfresh answer hanswer).2
      · exact hmono (hs.issued e he answer hanswer)
    · rcases List.mem_cons.mp he with rfl | he <;> rcases List.mem_cons.mp he' with rfl | he'
      · exact ⟨Option.some.inj (hanswer.symm.trans hanswer'), rfl⟩
      · exact absurd (hid ▸ hs.issued e' he' answer' hanswer') (hfresh answer hanswer).1
      · exact absurd (hid ▸ hs.issued e he answer hanswer) (hfresh answer' hanswer').1
      · exact hs.once e he e' he' answer answer' hanswer hanswer' hid
    · rcases Stmt.submission_origin hrun hrow' with ⟨row, hrow, hsame⟩ | ⟨ws, rfl, hws, -⟩
      · rcases List.mem_cons.mp he with rfl | he
        · exact absurd (hsame.id.trans hid.symm ▸ hs.numbered row hrow) (hfresh answer hanswer).1
        · rw [← hsame.form_id]
          exact hs.traced row hrow e he answer hanswer (hid.trans hsame.id.symm)
      · rcases List.mem_cons.mp he with rfl | he
        · cases hanswer
        · obtain ⟨e₀, he₀, event, hanswer₀⟩ := hpre.1 row' hws
          have hsame := hs.once e₀ he₀ e he (row', event) answer hanswer₀ hanswer hid.symm
          rw [← hsame.1]
    · rcases List.mem_cons.mp he with rfl | he
      · exact (id_of_inserted hrun hanswer).2.2
      · exact hs.about e he answer hanswer
    · have hthere : ∃ e' ∈ s.log, e'.pid = e.pid ∧ ∃ row, inserted e' = some (row, some ev) := by
        rcases List.mem_cons.mp he with rfl | he
        · obtain ⟨writes, rfl, hmem⟩ := of_writesEvent hev
          exact (hpre.2 ev hmem).2
        · exact hs.written e he ev hev
      obtain ⟨e', he', hanswer⟩ := hthere
      exact ⟨e', List.mem_cons_of_mem _ he', hanswer⟩

end Statement

/-! ### The scripts

Of all requests one inserts submissions. For the others it is enough that they write none, which
is a property of their statements and not of their order. -/

/-- What a submission has done once it is accepted: it has found the form, its row and the event it
owes were answered by one `INSERT`, and one commit has stored both. -/
structure Submitted (p : ℕ) (r : Request) (public_id : String) (a : SubmissionAccepted)
    (log : List Event) : Prop where
  exists_insert : ∃ form db₁ n now db₂ row event db₃ writes,
    ⟨p, r, db₁, .forms (.find_by_public_id public_id), .ok (some form)⟩ ∈ log ∧
    form ∈ db₁.forms.rows ∧
    ⟨p, r, db₂, .submissions (.insert n now), .ok (row, event)⟩ ∈ log ∧
    ⟨p, r, db₃, .commit writes, .ok ()⟩ ∈ log ∧
    n.organization_id = form.organization_id ∧ n.form_id = form.id ∧
    n.notify = !form.notify_emails.isEmpty ∧ row.id = a.id ∧ row.form_id = n.form_id ∧
    event = n.queued db₂ row.id now ∧ ∀ ev, Write.outbox_event ev ∈ writes ↔ event = some ev

/-- The logic of stored submissions, in any regime. -/
def storedLogic (P : Platform) (G : Regime) : Logic G (store P) :=
  .ofPre fun p _ q s => StoredPre p s q

section Scripts

variable {d : Deployment} {P : Platform} {G : Regime} {p : ℕ} {r : Request} {s s' : State}
  {q : Stmt} {n : NewSubmission} {files : Option (List (String × FileMetadata))}

theorem Uncommitted.of_others (h : Uncommitted p s.log) (ho : Others p s s') :
    Uncommitted p s'.log :=
  fun e he hp => h e ((ho.mem_iff hp).mp he) hp

theorem Uncommitted.effect {x : Except Failure q.Reply} (h : Uncommitted p s.log)
    (hx : G.Effect (store P) p r q s x s') (hq : ∀ writes, q ≠ .commit writes) :
    Uncommitted p s'.log := by
  intro e he hp ev hev
  rw [hx.log_eq] at he
  rcases List.mem_cons.mp he with rfl | he
  · obtain ⟨writes, rfl, -⟩ := of_writesEvent hev
    exact hq writes rfl
  · exact h e he hp ev hev

/-- What an `INSERT` of `n`, with or without files, and the commit after it leave in the trace. -/
def StoredAs (p : ℕ) (r : Request) (n : NewSubmission) (id : Uuid) (log : List Event) : Prop :=
  ∃ files now db₂ row event db₃ writes,
    ⟨p, r, db₂, .submissions (.insert { n with files := files } now), .ok (row, event)⟩ ∈ log ∧
    ⟨p, r, db₃, .commit writes, .ok ()⟩ ∈ log ∧ row.id = id ∧ row.form_id = n.form_id ∧
    event = n.queued db₂ row.id now ∧ ∀ ev, Write.outbox_event ev ∈ writes ↔ event = some ev

/-- The writes of a submission, and of claims next to them. -/
theorem mem_submission_writes (row : SubmissionRecord) (event : Option OutboxEvent)
    {claims : List Write} (hclaims : ∀ w ∈ claims, ∃ ids id, w = .claim_uploads ids id) :
    (∀ row', Write.submission row' ∈ FormService.submission_writes row event ++ claims →
      row' = row) ∧
      ∀ ev, Write.outbox_event ev ∈ FormService.submission_writes row event ++ claims ↔
        event = some ev := by
  have hrow : ∀ row', Write.submission row' ∉ claims := fun row' hmem => by
    obtain ⟨_, _, heq⟩ := hclaims _ hmem
    cases heq
  have hevent : ∀ ev, Write.outbox_event ev ∉ claims := fun ev hmem => by
    obtain ⟨_, _, heq⟩ := hclaims _ hmem
    cases heq
  constructor
  · intro row' hmem
    cases event <;> simpa [FormService.submission_writes, hrow] using hmem
  · intro ev
    cases event <;> simp [FormService.submission_writes, hevent, eq_comm]

/-- The insert of a submission, and what a transaction does with its answer. -/
theorem wp_insert_stored {now : Timestamp} (files : Option (List (String × FileMetadata)))
    {rest : SubmissionRecord × Option OutboxEvent → Code FormError Uuid}
    {Φ : Except FormError Uuid → State → Prop} (hs : Uncommitted p s.log)
    (herror : ∀ e s, Φ (.error e) s) (hrest : ∀ row event s' db₂, Uncommitted p s'.log →
      ⟨p, r, db₂, .submissions (.insert { n with files := files } now), .ok (row, event)⟩ ∈ s'.log →
      row.form_id = n.form_id → event = n.queued db₂ row.id now →
      (storedLogic P G).wp p r (rest (row, event)) Φ s') :
    (storedLogic P G).wp p r
      (ask (.submissions (.insert { n with files := files } now)) >>= rest) Φ s := by
  refine Logic.wp_query_bind fun s₁ he₁ => ⟨trivial, fun answer s₂ hx _ => ?_,
    fun _ _ _ _ _ _ => herror _ _⟩
  have hs₂ := (hs.of_others he₁.others).effect hx fun _ => nofun
  obtain ⟨-, c, db, hrun, rfl⟩ := hx.of_ok
  rcases of_run_insert hrun with ⟨e, -, heq, -⟩ | ⟨-, -, heq, -⟩ <;> cases heq
  exact hrest _ _ _ s₁.db hs₂ List.mem_cons_self rfl rfl

theorem StoredAs.mono {id : Uuid} {log log' : List Event} (h : StoredAs p r n id log)
    (hlog : ∀ e ∈ log, e ∈ log') : StoredAs p r n id log' := by
  obtain ⟨files, now, db₂, row, event, db₃, writes, hinsert, hcommit, hrest⟩ := h
  exact ⟨files, now, db₂, row, event, db₃, writes, hlog _ hinsert, hlog _ hcommit, hrest⟩

/-- A transaction around an insert. -/
theorem wp_transaction_stored {body : Timestamp → Code FormError Uuid} (hs : Uncommitted p s.log)
    (hbody : ∀ now s', Uncommitted p s'.log → (storedLogic P G).wp p r (body now)
      (fun y s'' => ∀ id, y = .ok id → StoredAs p r n id s''.log) s') :
    (storedLogic P G).wp p r (transaction body)
      (fun y s'' => ∀ id, y = .ok id → StoredAs p r n id s''.log) s := by
  refine wp_transaction_post (fun _ => trivial) (fun _ => trivial) trivial
    (fun _ now s₂ he₁ hx₂ _ => hbody now s₂ ((hs.of_others he₁.others).effect hx₂ fun _ => nofun))
    (fun _ _ _ _ _ _ _ => nofun) ?_
  intro y s₁ s₂ x s₃ s₄ hy he₂ hx₃ he₄ id hid
  exact (hy id hid).mono fun e he => he₄.others.mem (hx₃.mem (he₂.others.mem he))

/-- The commit after an insert. -/
theorem wp_commit_stored {now : Timestamp} {db₂ : Database} {row : SubmissionRecord}
    {event : Option OutboxEvent} {writes : List Write} (hs : Uncommitted p s.log)
    (hrow : ∀ row', Write.submission row' ∈ writes → row' = row)
    (hwrites : ∀ ev, Write.outbox_event ev ∈ writes ↔ event = some ev)
    (hinsert : ⟨p, r, db₂, .submissions (.insert { n with files := files } now),
      .ok (row, event)⟩ ∈ s.log)
    (hform : row.form_id = n.form_id) (hevent : event = n.queued db₂ row.id now) :
    (storedLogic P G).wp p r (ask (.commit writes) >>= fun _ => .ret row.id : Code FormError Uuid)
      (fun y s'' => ∀ id, y = .ok id → StoredAs p r n id s''.log) s := by
  refine Logic.wp_query_bind fun s₁ he₁ => ⟨⟨fun row' hrow' => ?_, fun ev hev => ?_⟩,
    fun _ s₂ hx₂ _ s₃ he₃ id hid => ?_, fun _ _ _ _ _ _ => nofun⟩
  · exact ⟨_, he₁.others.mem hinsert, event, hrow row' hrow' ▸ rfl⟩
  · exact ⟨hs.of_others he₁.others, _, he₁.others.mem hinsert, rfl, row,
      (hwrites ev).mp hev ▸ rfl⟩
  · cases hid
    exact ⟨files, now, db₂, row, event, s₁.db, writes,
      he₃.others.mem (hx₂.mem (he₁.others.mem hinsert)), he₃.others.mem hx₂.mem_self, rfl, hform,
      hevent, hwrites⟩

theorem wp_insert_submission_stored (hs : Uncommitted p s.log) :
    (storedLogic P G).wp p r (FormService.insert_submission n)
      (fun y s'' => ∀ id, y = .ok id → StoredAs p r n id s''.log) s := by
  refine wp_transaction_stored hs fun now s₁ hs₁ =>
    wp_insert_stored n.files hs₁ (fun _ _ _ => nofun)
    fun row event s₂ db₂ hs₂ hinsert hform hevent => ?_
  have hnone : ∀ w ∈ ([] : List Write), ∃ ids id, w = .claim_uploads ids id :=
    fun _ hw => absurd hw List.not_mem_nil
  obtain ⟨hrow, hwrites⟩ := mem_submission_writes row event hnone
  rw [List.append_nil] at hrow hwrites
  exact wp_commit_stored hs₂ hrow hwrites hinsert hform hevent

theorem wp_insert_claiming_files_stored (hs : Uncommitted p s.log)
    (answers : List (String × String)) :
    (storedLogic P G).wp p r (FormService.insert_claiming_files n answers)
      (fun y s'' => ∀ id, y = .ok id → StoredAs p r n id s''.log) s := by
  refine wp_transaction_stored hs fun now s₁ hs₁ => ?_
  refine Logic.wp_query_bind fun s₂ he₂ => ⟨trivial, fun recorded s₃ hx₃ _ => ?_,
    fun _ _ _ _ _ _ => nofun⟩
  have hs₃ := (hs₁.of_others he₂.others).effect hx₃ fun _ => nofun
  cases check_file_references recorded answers with
  | error e => exact fun _ _ => nofun
  | ok metadata =>
    refine wp_insert_stored _ hs₃ (fun _ _ _ => nofun)
      fun row event s₄ db₂ hs₄ hinsert hform hevent => ?_
    refine Logic.wp_query_bind fun s₅ he₅ => ⟨trivial, fun claimed s₆ hx₆ _ => ?_,
      fun _ _ _ _ _ _ => nofun⟩
    split
    · exact fun _ _ => nofun
    · have hclaims : ∀ w ∈ [Write.claim_uploads claimed row.id], ∃ ids id,
          w = .claim_uploads ids id := fun w hw => ⟨_, _, List.mem_singleton.mp hw⟩
      obtain ⟨hrow, hwrites⟩ := mem_submission_writes row event hclaims
      have hs₆ := (hs₄.of_others he₅.others).effect hx₆ fun _ => nofun
      exact wp_commit_stored hs₆ hrow hwrites (hx₆.mem (he₅.others.mem hinsert)) hform hevent

/-- **A submission that is accepted is stored**, as the answer to its own insert. -/
theorem wp_submit_stored (hs : Uncommitted p s.log) (public_id : String) (payload : Map)
    (client : ClientInfo) (referer : Option String) :
    (storedLogic d.platform G).wp p r (FormService.submit d public_id payload client referer)
      (fun y s' => ∀ a, y = .ok a → Submitted p r public_id a s'.log) s := by
  refine Logic.wp_bind trivial (?_ : (storedLogic d.platform G).wp p r
    (FormService.load_published public_id) (fun y s' => ∀ form, y = .ok form →
      Uncommitted p s'.log ∧ ∃ db₁,
        ⟨p, r, db₁, .forms (.find_by_public_id public_id), .ok (some form)⟩ ∈ s'.log ∧
        form ∈ db₁.forms.rows) s)
    (fun form s₁ _ hfound => ?_) fun _ _ _ _ => nofun
  · refine Logic.wp_query_bind fun s₁ he₁ => ⟨trivial, fun found s₂ hx₂ _ => ?_,
      fun _ _ _ _ _ _ => nofun⟩
    have hs₂ := (hs.of_others he₁.others).effect hx₂ fun _ => nofun
    cases found with
    | none => exact fun _ _ => nofun
    | some form =>
      dsimp only
      split
      · rintro s₃ he₃ form' heq
        cases heq
        obtain ⟨-, c, db, hrun, -⟩ := hx₂.of_ok
        have hfind : (s₁.db.forms.rows.find? fun f => f.public_id == public_id) = some form :=
          Except.ok.inj (congrArg Prod.snd (Option.some.inj hrun))
        exact ⟨hs₂.of_others he₃.others, _, he₃.others.mem hx₂.mem_self,
          List.mem_of_find?_eq_some hfind⟩
      · exact fun _ _ => nofun
      · exact fun _ _ => nofun
  obtain ⟨hs₁, db₁, hload, hmem⟩ := hfound form rfl
  refine Logic.wp_query_bind fun s₂ he₂ => ⟨trivial, fun allowed s₃ hx₃ _ => ?_,
    fun _ _ _ _ _ _ => nofun⟩
  have hs₃ := (hs₁.of_others he₂.others).effect hx₃ fun _ => nofun
  split
  · exact fun _ _ => nofun
  · split
    · exact fun _ _ => nofun
    · next answers hanswers =>
      have hload₃ := hx₃.mem (he₂.others.mem hload)
      have hend : ∀ {x : Code FormError Uuid}, (storedLogic d.platform G).wp p r x
          (fun y s'' => ∀ id, y = .ok id →
            StoredAs p r (FormService.new_submission form payload answers client referer)
            id s''.log)
          s₃ → (storedLogic d.platform G).wp p r
            (x >>= fun id => .ret ⟨id, form.success_message, form.redirect_url⟩)
            (fun y s' => ∀ a, y = .ok a → Submitted p r public_id a s'.log) s₃ := by
        intro x hx
        refine Logic.wp_bind trivial (Logic.wp_grows hx fun e he => he)
          (fun id s₄ _ hpost s₅ he₅ a heq => ?_) fun _ _ _ _ => nofun
        cases heq
        obtain ⟨hstored, hgrows⟩ := hpost
        obtain ⟨files, now, db₂, row, event, db₃, writes, hinsert, hcommit, hid, hform, hevent,
          hwrites⟩ := (hstored id rfl).mono fun _ => he₅.others.mem
        exact ⟨form, db₁, _, now, db₂, row, event, db₃, writes, he₅.others.mem (hgrows _ hload₃),
          hmem, hinsert, hcommit, rfl, rfl, rfl, hid, hform, hevent, hwrites⟩
      dsimp only
      split
      · exact hend (wp_insert_submission_stored hs₃)
      · exact hend (wp_insert_claiming_files_stored hs₃ _)

/-! #### The other requests -/

theorem StoredPre.of_storesNothing (h : q.storesNothing) : StoredPre p s q := by
  cases q with
  | commit writes =>
    have hnone : ∀ w ∈ writes, w.ofSubmission = true → False := fun w hw hsubmission => by
      have hany : writes.any Write.ofSubmission = true := List.any_eq_true.mpr ⟨w, hw, hsubmission⟩
      rw [Stmt.storesNothing, hany] at h
      exact h
    exact ⟨fun row hrow => (hnone _ hrow rfl).elim, fun ev hev => (hnone _ hev rfl).elim⟩
  | _ => trivial

theorem StoredPre.of_unserved (h : ¬ q.served) : StoredPre p s q := by
  cases q with
  | commit writes => exact absurd trivial h
  | _ => trivial

theorem definitionPre_of_ordinary (h : q.ordinary) : DefinitionPre d p s q := by
  unfold DefinitionPre
  split
  · exact h.elim
  · exact h.elim
  · exact h.elim
  · trivial

theorem definitionPre_of_unserved (h : ¬ q.served) : DefinitionPre d p s q := by
  cases q with
  | forms _ => exact absurd trivial h
  | _ => trivial

theorem wp_of_storedPre {ε α : Type} {x : Code ε α} (hx : x.Issues fun q => ∀ s, StoredPre p s q) :
    (storedLogic P G).wp p r x (fun _ _ => True) s :=
  Logic.wp_of_does (fun q => ∀ s, StoredPre p s q) (fun _ _ => True) (fun _ => True) (fun _ => True)
    (fun _ _ => trivial) (fun hq _ _ => hq _) (fun _ _ _ _ _ => ⟨trivial, trivial⟩)
    (fun _ _ => trivial) hx.does trivial

theorem submit_definitionPre (public_id : String) (payload : Map) (client : ClientInfo)
    (referer : Option String) : (FormService.submit d public_id payload client referer).Issues
      fun q => ∀ p s, DefinitionPre d p s q := by
  have hload : (FormService.load_published public_id).Issues fun q =>
      ∀ p s, DefinitionPre d p s q :=
    (FormService.load_published_ordinary public_id).mono fun _ hq _ _ =>
      definitionPre_of_ordinary hq
  refine hload.bind fun form => (issues_query fun _ _ => trivial).bind fun allowed => ?_
  split
  · exact issues_throw
  · split
    · exact issues_throw
    · dsimp only
      split
      · refine Issues.bind (transaction_issues (fun _ _ => trivial) (fun now => ?_)
          fun _ _ => trivial) fun _ => issues_ret
        exact (issues_query fun _ _ => trivial).bind fun _ =>
          (issues_query fun _ _ => trivial).bind fun _ => issues_ret
      · refine Issues.bind (transaction_issues (fun _ _ => trivial) (fun now => ?_)
          fun _ _ => trivial) fun _ => issues_ret
        refine (issues_query fun _ _ => trivial).bind fun recorded => ?_
        refine Issues.bind ?_ fun metadata => (issues_query fun _ _ => trivial).bind fun _ =>
          (issues_query fun _ _ => trivial).bind fun claimed => ?_
        · unfold FormService.require
          split <;> trivial
        · split
          · exact issues_throw
          · exact (issues_query fun _ _ => trivial).bind fun _ => issues_ret

/-- Every request checks the definitions it writes. -/
theorem wp_definition (r : Request) :
    (definitionLogic d G).wp p r (Request.code d r) (fun _ _ => True) s := by
  by_cases hpass : r.isPass
  · exact wp_of_definitionPre ((Request.unserved hpass).mono fun _ hq _ _ =>
      definitionPre_of_unserved hq)
  by_cases hforms : r.feedsForms
  · cases r with
    | create_form _ _ _ | update_form _ _ _ _ | publish_form _ _ _ => exact wp_managesForms trivial
    | submit public_id payload client referer =>
      exact wp_of_definitionPre (submit_definitionPre public_id payload client referer)
    | _ => exact hforms.elim
  · exact wp_of_definitionPre ((Request.ordinary hpass hforms).mono fun _ hq _ _ =>
      definitionPre_of_ordinary hq)

/-- What is known of a request when it has ended. -/
def StoredPost (p : ℕ) : (r : Request) → Except r.Err r.Res → State → Prop
  | .submit public_id payload client referer, y, s =>
    ∀ a, y = .ok a → Submitted p (.submit public_id payload client referer) public_id a s.log
  | _, _, _ => True

/-- Every request stores what it has been answered. -/
theorem wp_stored (r : Request) (hfresh : ∀ e ∈ s.log, e.pid ≠ p) :
    (storedLogic d.platform G).wp p r (Request.code d r) (StoredPost p r) s := by
  by_cases hpass : r.isPass
  · refine Logic.wp_mono (wp_of_storedPre ((Request.unserved hpass).mono fun _ hq _ =>
      StoredPre.of_unserved hq)) fun _ _ _ _ => ?_
    cases r <;> trivial
  by_cases hsubmit : r.isSubmit
  · cases r with
    | submit public_id payload client referer =>
      exact wp_submit_stored (fun e he hp => absurd hp (hfresh e he)) public_id payload
        client referer
    | _ => exact hsubmit.elim
  · refine Logic.wp_mono (wp_of_storedPre ((Request.storesNothing hpass hsubmit).mono fun _ hq _ =>
      StoredPre.of_storesNothing hq)) fun _ _ _ _ => ?_
    cases r <;> trivial

end Scripts

/-! ### Every run -/

section Run

variable {d : Deployment} {db : Database} {w : World}

theorem definition_safe (db : Database) :
    (definitionLogic d anything).Safe (fun _ _ _ _ => True) (World.start db) := .start trivial

theorem stored_safe (db : Database) :
    (storedLogic d.platform anything).Safe StoredPost (World.start db) := .start trivial

theorem formsSound_of_reaches (hdb : FormsSound d.platform db)
    (h : Reaches d anything (World.start db) w) : FormsSound d.platform w.shared.db := by
  refine Logic.inv_of_reaches (I := fun s => FormsSound d.platform s.db)
    (fun _ r _ _ _ _ => wp_definition r) (definition_safe db) hdb ?_ (fun _ hs => ⟨hs.1, hs.2⟩)
    (fun hs => ⟨hs.1, hs.2⟩) h
  intro p r q s x s' _ hpre hs he
  cases he with
  | fail _ => exact ⟨hs.1, hs.2⟩
  | run _ hrun => exact hs.run hpre hrun

theorem SubmissionsTraced.start (hdb : ∀ row ∈ db.submissions.rows, row.id ∈ db.issued) :
    SubmissionsTraced (World.start db).shared :=
  ⟨hdb, fun _ he => absurd he List.not_mem_nil, fun _ he => absurd he List.not_mem_nil,
    fun _ _ _ he => absurd he List.not_mem_nil, fun _ he => absurd he List.not_mem_nil,
    fun _ he => absurd he List.not_mem_nil⟩

theorem submissionsTraced_of_reaches (hdb : ∀ row ∈ db.submissions.rows, row.id ∈ db.issued)
    (h : Reaches d anything (World.start db) w) : SubmissionsTraced w.shared := by
  exact Logic.inv_of_reaches (fun _ r _ _ _ hfresh => wp_stored r hfresh) (stored_safe db)
    (.start hdb)
    (fun _ hpre hs he => hs.effect hpre he) (fun _ hs => ⟨hs.1, hs.2, hs.3, hs.4, hs.5, hs.6⟩)
    (fun hs => ⟨hs.1, hs.2, hs.3, hs.4, hs.5, hs.6⟩) h

/-- What has been accepted was stored. -/
theorem submitted_of_returned (h : Reaches d anything (World.start db) w) {p : ℕ}
    {public_id : String} {payload : Map} {client : ClientInfo} {referer : Option String}
    {a : SubmissionAccepted}
    (hreturned : w.Returned p (.submit public_id payload client referer) a) :
    Submitted p (.submit public_id payload client referer) public_id a w.shared.log :=
  (Logic.safe_of_reaches (fun _ r _ _ _ hfresh => wp_stored r hfresh) (stored_safe db)
    h).of_returned
    hreturned a rfl

end Run

end SubmitSnap
