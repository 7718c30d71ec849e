import SubmitSnap.Frames
import SubmitSnap.Interleave.Alone

/-!
# One submission

What `submit` comes to when nobody else runs meanwhile, as a function of the state it starts in. A
submission passes three gates. `intake` looks at the form and the payload and writes nothing;
`admission` is the database's, which may refuse the row, and the upload ledger's, which may refuse
the files; what passes both is stored, next to the event it owes, in one commit.

The payload reaches the second gate only through its answers and the status they are filed under,
and the status reaches nothing but its own column. That is what a comparison of two submissions
rests on.

## The argument

The script is executed symbolically, statement by statement, in the semantics where nobody else
takes a step (`Alone`). Locks make this less immediate than it sounds, because every statement
leaves some behind and the database after a statement is not literally the one before it. The
gates do not look at locks, and the commit releases those of the process, so in the end they do
not show (`unlock_lockAll`, `refused_lockAll`).

## Main definitions

* `intake`, `admission` — the gates.
* `Database.stored` — the database with a submission in it.

## Main results

* `of_alone_submit` — how a submission ends.
-/

namespace SubmitSnap

open Interleave
open FormService (submission_writes new_submission)

/-! ### The gates -/

/-- The form behind a public handle, if it accepts submissions. -/
def Database.published (db : Database) (public_id : String) : Except FormError FormRecord :=
  match db.forms.rows.find? fun f => f.public_id == public_id with
  | none => .error .not_found
  | some form =>
    match form.status with
    | .draft => .error .not_found
    | .closed => .error .closed
    | .published => .ok form

/-- What a submission comes to before anything is written: the form and the answers to store. -/
def intake (d : Deployment) (db : Database) (public_id : String) (allowed : Bool) (payload : Map) :
    Except FormError (FormRecord × Map) :=
  match db.published public_id with
  | .error e => .error e
  | .ok form =>
    if !allowed then .error .too_many_submissions
    else
      match validate_submission d.platform form.schema payload with
      | .error problems => .error (.invalid_submission (String.intercalate "; " problems))
      | .ok answers => .ok (form, answers)

/-- Why the database refuses the row, if it does. -/
def NewSubmission.refused (db : Database) (n : NewSubmission) : Option Failure :=
  if Map.has_nul n.data then
    some (.raised UNTRANSLATABLE_CHARACTER "unsupported Unicode escape sequence")
  else if !db.organizations.hasKey n.organization_id then
    some (.foreign_key "submissions_organization_id_fkey")
  else if !db.forms.hasKey n.form_id then some (.foreign_key "submissions_form_id_fkey")
  else none

/-- The event that is written with the row, if one is owed. -/
def NewSubmission.queued (db : Database) (n : NewSubmission) (id : Uuid) (now : Timestamp) :
    Option OutboxEvent :=
  if n.notify || db.wanted n.organization_id n.form_id then some (n.event id now) else none

namespace Database

/-- What the ledger has about a form's objects. -/
def recorded (db : Database) (form_id : Uuid) (object_keys : List String) :
    List FileUploadRecord :=
  (db.file_uploads.rows.filter fun u =>
    u.form_id == form_id && u.object_key ∈ object_keys).insertionSort
      fun u u' => u.object_key ≤ u'.object_key

/-- The objects among these that nobody has claimed. -/
def unclaimed (db : Database) (object_keys : List String) : List Uuid :=
  (db.file_uploads.rows.filter fun u =>
    u.object_key ∈ object_keys && u.submission_id.isNone).map (·.id)

/-- The database with a submission in it, its event and the uploads it has claimed. -/
def stored (db : Database) (p : ℕ) (row : SubmissionRecord) (event : Option OutboxEvent)
    (claimed : Option (List Uuid)) : Database :=
  Write.applyAll ((db.unlock p).issue row.id)
    (submission_writes row event ++ claimed.toList.map fun ids => .claim_uploads ids row.id)

end Database

/-- What the database and the ledger make of a submission: the row to store, and the uploads it
claims if it has any. -/
def admission (db : Database) (n : NewSubmission) (files : List (String × String)) :
    Except FormError (NewSubmission × Option (List Uuid)) :=
  let object_keys := files.map (·.2)
  if files.isEmpty then
    match n.refused db with
    | some e => .error (.internal e)
    | none => .ok (n, none)
  else
    match check_file_references (db.recorded n.form_id object_keys) files with
    | .error e => .error e
    | .ok metadata =>
      match n.refused db with
      | some e => .error (.internal e)
      | none =>
        if (db.unclaimed object_keys).length ≠ object_keys.length then
          .error (.file_rejected "a file was claimed by another submission")
        else .ok ({ n with files := some metadata }, some (db.unclaimed object_keys))

section Alone

variable {P : Platform} {d : Deployment} {p : ℕ} {c : Choice} {cs rest : ℕ → Choice}
  {db db' : Database} {ε α : Type}

/-! ### Locks and what is under them

Locks are part of the database, and every statement of a transaction leaves some. What the gates
and the writes look at is under them, so a database may be unlocked before it is asked. -/

@[simp] theorem unlock_lock (row : Row) (mode : LockMode) :
    (db.lock p row mode).unlock p = db.unlock p := by
  simp [Database.lock, Database.unlock, Locks.acquire, Locks.release]

@[simp] theorem unlock_lockAll (mode : LockMode) (rows : List Row) :
    (db.lockAll p mode rows).unlock p = db.unlock p := by
  induction rows generalizing db with
  | nil => rfl
  | cons row rows ih => rw [Database.lockAll, ih, unlock_lock]

@[simp] theorem unlock_unlock : (db.unlock p).unlock p = db.unlock p := by
  simp [Database.unlock, Locks.release]

theorem unlock_issue (n : ℕ) : (db.issue n).unlock p = (db.unlock p).issue n := rfl

theorem unlock_applyAll (ws : List Write) :
    (Write.applyAll db ws).unlock p = Write.applyAll (db.unlock p) ws := by
  induction ws generalizing db with
  | nil => rfl
  | cons w ws ih =>
    rw [Write.applyAll_cons, ih]
    cases w <;> rfl

/-- A transaction that nobody disturbs. -/
theorem alone_transaction [Raises Failure ε] {body : Timestamp → Code ε α} :
    (store P).alone p (transaction body) cs db =
      ((store P).alone p (body db.clock) (fun n => cs (n + 1)) db).map fun (y, db', cs') =>
        (y, db'.unlock p, fun n => cs' (n + 1)) := by
  have hbegin : (store P).run p .begin_tx (cs 0) db = some (db, .ok db.clock) := rfl
  unfold transaction
  rw [Store.alone_ensuring, Store.alone_query_bind hbegin]
  cases (store P).alone p (body db.clock) (fun n => cs (n + 1)) db <;> rfl

/-! ### The row -/

variable {n : NewSubmission} {now : Timestamp} {files : List (String × String)}

/-- **What becomes of the row**: it is refused, or it gets an id and the event it owes. -/
theorem of_run_insert {x : Except Failure (SubmissionStmt.insert n now).Reply}
    (h : (SubmissionStmt.insert n now).run p c db = some (db', x)) :
    (∃ e, n.refused db = some e ∧ x = .error e ∧ db' = db) ∨
      n.refused db = none ∧ db.unused c.id = true ∧
        x = .ok (n.row c.id now, n.queued db c.id now) ∧
        db' = ((db.issue c.id).lock p (.form n.form_id) .keyShare).lock p
          (.organization n.organization_id) .keyShare := by
  unfold NewSubmission.refused NewSubmission.queued
  simp only [SubmissionStmt.run] at h
  split at h
  · next hnul =>
    cases h
    exact .inl ⟨_, if_pos hnul, rfl, rfl⟩
  · next hnul =>
    split at h
    · next hfree =>
      rw [if_neg hnul]
      split at h
      · next horganization =>
        cases h
        exact .inl ⟨_, if_pos horganization, rfl, rfl⟩
      · next horganization =>
        rw [if_neg horganization]
        split at h
        · next hform =>
          cases h
          exact .inl ⟨_, if_pos hform, rfl, rfl⟩
        · next hform =>
          cases h
          rw [if_neg hform]
          rw [Bool.and_eq_true, Bool.and_eq_true] at hfree
          exact .inr ⟨rfl, hfree.1.1, rfl, rfl⟩
    · cases h

/-- The row has to wait for nobody but those who hold the form or the organization. -/
theorem isSome_run_insert (now : Timestamp) (hunused : db.unused c.id = true)
    (hform : db.free p (.form n.form_id) .keyShare = true)
    (horganization : db.free p (.organization n.organization_id) .keyShare = true) :
    ((SubmissionStmt.insert n now).run p c db).isSome = true := by
  simp only [SubmissionStmt.run, hunused, hform, horganization, Bool.and_self, if_true]
  (repeat' split) <;> rfl

/-- What the ledger answers, and whom it locks. -/
theorem of_run_lock_for_claim {form_id : Uuid} {object_keys : List String}
    {x : Except Failure (UploadStmt.lock_for_claim form_id object_keys).Reply}
    (h : (UploadStmt.lock_for_claim form_id object_keys).run p c db = some (db', x)) :
    x = .ok (db.recorded form_id object_keys) ∧
      ∃ rows, db' = db.lockAll p .update rows := by
  simp only [UploadStmt.run] at h
  split at h
  · cases h
    exact ⟨rfl, _, rfl⟩
  · cases h

theorem of_run_claim {object_keys : List String}
    {x : Except Failure (UploadStmt.claim object_keys).Reply}
    (h : (UploadStmt.claim object_keys).run p c db = some (db', x)) :
    x = .ok (db.unclaimed object_keys) ∧ ∃ rows, db' = db.lockAll p .noKeyUpdate rows := by
  simp only [UploadStmt.run] at h
  split at h
  · cases h
    exact ⟨rfl, _, rfl⟩
  · cases h

/-- Locks do not show in what the gates look at. -/
theorem refused_lockAll (n : NewSubmission) (db : Database) (mode : LockMode) (rows : List Row) :
    n.refused (db.lockAll p mode rows) = n.refused db ∧
      n.queued (db.lockAll p mode rows) = n.queued db ∧
      (db.lockAll p mode rows).unclaimed = db.unclaimed ∧
      (db.lockAll p mode rows).unused = db.unused := by
  obtain ⟨ls, hls⟩ := Database.lockAll_eq p mode rows db
  rw [hls]
  exact ⟨rfl, rfl, rfl, rfl⟩

/-! ### How a submission ends -/

theorem stored_submissions {row : SubmissionRecord} {event : Option OutboxEvent}
    {claimed : Option (List Uuid)} :
    (db.stored p row event claimed).submissions = db.submissions.insertNew row := by
  unfold Database.stored
  cases event <;> cases claimed <;> rfl

/-- A submission without files. -/
theorem of_alone_insert_submission {y : Except FormError Uuid}
    (h : (store P).alone p (FormService.insert_submission n) cs db = some (y, db', rest)) :
    (∃ e, n.refused db = some e ∧ y = .error (.internal e) ∧ db' = db.unlock p) ∨
      ∃ id, n.refused db = none ∧ db.unused id = true ∧ y = .ok id ∧
        db' = db.stored p (n.row id db.clock) (n.queued db id db.clock) none := by
  unfold FormService.insert_submission at h
  rw [alone_transaction, Option.map_eq_some_iff] at h
  obtain ⟨⟨z, db₂, cs₂⟩, hbody, heq⟩ := h
  cases heq
  rcases Store.of_alone_query_bind hbody with ⟨a, db₁, hrun, hrest⟩ | ⟨x, hrun, rfl⟩ <;>
    rcases of_run_insert hrun with ⟨e, hrefused, heq, rfl⟩ | ⟨hrefused, hunused, heq, rfl⟩ <;>
    cases heq
  · cases hrest
    refine .inr ⟨_, hrefused, hunused, rfl, ?_⟩
    rw [unlock_unlock, unlock_applyAll, unlock_lock, unlock_lock, unlock_issue, Database.stored]
    simp [NewSubmission.row]
  · exact .inl ⟨_, hrefused, rfl, rfl⟩

/-- It ends, if nobody holds the form or the organization. -/
theorem isSome_alone_insert_submission (hunused : db.unused (cs 1).id = true)
    (hform : db.free p (.form n.form_id) .keyShare = true)
    (horganization : db.free p (.organization n.organization_id) .keyShare = true) :
    ((store P).alone p (FormService.insert_submission n) cs db).isSome = true := by
  unfold FormService.insert_submission
  rw [alone_transaction, Option.isSome_map]
  obtain ⟨⟨db₁, x⟩, hrun⟩ := Option.isSome_iff_exists.mp
    (isSome_run_insert (n := n) db.clock hunused hform horganization)
  change (((store P).run p (.submissions (.insert n db.clock)) (cs 1) db).bind _).isSome = true
  rw [show (store P).run p (.submissions (.insert n db.clock)) (cs 1) db = some (db₁, x) from hrun]
  cases x <;> rfl

/-- A submission with files. -/
theorem of_alone_insert_claiming_files {y : Except FormError Uuid} (hfiles : files.isEmpty = false)
    (h : (store P).alone p (FormService.insert_claiming_files n files) cs db =
      some (y, db', rest)) :
    (∃ e issued, admission db n files = .error e ∧ y = .error e ∧
      db' = { db.unlock p with issued := issued }) ∨
      ∃ id n' claimed, admission db n files = .ok (n', claimed) ∧ db.unused id = true ∧ y = .ok id ∧
        db' = db.stored p (n'.row id db.clock) (n'.queued db id db.clock) claimed := by
  unfold admission
  rw [if_neg (by simp [hfiles])]
  unfold FormService.insert_claiming_files at h
  rw [alone_transaction, Option.map_eq_some_iff] at h
  obtain ⟨⟨z, db₄, cs₄⟩, hbody, heq⟩ := h
  cases heq
  rcases Store.of_alone_query_bind hbody with ⟨recorded, db₁, hlock, hrest⟩ | ⟨x, hlock, -⟩ <;>
    obtain ⟨heq, rows, rfl⟩ := of_run_lock_for_claim (c := cs 1) hlock <;> cases heq
  cases hcheck : check_file_references (db.recorded n.form_id (files.map (·.2))) files with
  | error e =>
    rw [hcheck] at hrest
    cases hrest
    exact .inl ⟨e, db.issued, rfl, rfl, unlock_lockAll _ _⟩
  | ok metadata =>
    rw [hcheck] at hrest
    obtain ⟨hrefused, hqueued, hunclaimed, hfresh⟩ := refused_lockAll (p := p)
      { n with files := some metadata } db .update rows
    dsimp only [FormService.require] at hrest ⊢
    rw [Script.ret_bind] at hrest
    rcases Store.of_alone_query_bind hrest with ⟨a, db₂, hinsert, hrest⟩ | ⟨x, hinsert, rfl⟩ <;>
      rcases of_run_insert hinsert with ⟨e, hrefuses, heq, rfl⟩ | ⟨hadmits, hunused, heq, rfl⟩ <;>
      cases heq
    · rcases Store.of_alone_query_bind hrest with ⟨claimed, db₃, hclaim, hrest⟩ | ⟨x, hclaim, -⟩ <;>
        obtain ⟨heq, rows', rfl⟩ := of_run_claim (c := cs 3) hclaim <;> cases heq
      have hsame : ∀ object_keys, (((((db.lockAll p .update rows).issue (cs 2).id).lock p
          (.form n.form_id) .keyShare).lock p (.organization n.organization_id) .keyShare).unclaimed
            object_keys) = db.unclaimed object_keys := fun object_keys => congrFun hunclaimed _
      rw [show n.refused db = none from hrefused ▸ hadmits]
      dsimp only
      split at hrest
      · next hcount =>
        cases hrest
        rw [hsame] at hcount
        rw [if_pos hcount]
        refine .inl ⟨_, (cs 2).id :: db.issued, rfl, rfl, ?_⟩
        rw [unlock_lockAll, unlock_lock, unlock_lock, unlock_issue, unlock_lockAll]
        rfl
      · next hcount =>
        cases hrest
        rw [hsame] at hcount
        rw [if_neg hcount]
        refine .inr ⟨_, _, _, rfl, congrFun hfresh _ ▸ hunused, rfl, ?_⟩
        rw [unlock_unlock, unlock_applyAll, unlock_lockAll, unlock_lock, unlock_lock, unlock_issue,
          unlock_lockAll, hqueued, hsame]
        rfl
    · rw [show n.refused db = some _ from hrefused ▸ hrefuses]
      exact .inl ⟨_, db.issued, rfl, rfl, unlock_lockAll _ _⟩

variable {public_id : String} {payload answers : Map} {client : ClientInfo}
  {referer : Option String} {form : FormRecord}

theorem of_published (h : db.published public_id = .ok form) :
    form ∈ db.forms.rows ∧ form.status = .published := by
  unfold Database.published at h
  split at h
  · cases h
  · next found hfind =>
    cases hstatus : found.status <;> rw [hstatus] at h <;> cases h
    exact ⟨List.mem_of_find?_eq_some hfind, hstatus⟩

theorem alone_load_published : (store P).alone p (FormService.load_published public_id) cs db =
    some (db.published public_id, db, fun n => cs (n + 1)) := by
  have hfind : (store P).run p (.forms (.find_by_public_id public_id)) (cs 0) db =
      some (db, .ok (db.forms.rows.find? fun f => f.public_id == public_id)) := rfl
  unfold FormService.load_published Database.published
  rw [Store.alone_query_bind hfind]
  cases db.forms.rows.find? fun f => f.public_id == public_id with
  | none => rfl
  | some form =>
    dsimp only
    cases form.status <;> rfl

theorem published_of_intake {allowed : Bool}
    (h : intake d db public_id allowed payload = .ok (form, answers)) :
    db.published public_id = .ok form := by
  unfold intake at h
  split at h
  · cases h
  · next form' hform =>
    split at h
    · cases h
    · split at h <;> cases h
      exact hform

theorem run_check_key {key : Uuid} :
    (store P).run p (.check_key key) c db = some (db, .ok (c.id == 0)) := rfl

/-- A submission that does not pass the first gate writes nothing. -/
theorem alone_submit_of_error (client : ClientInfo) (referer : Option String) {e : FormError}
    (h : intake d db public_id ((cs 1).id == 0) payload = .error e) :
    ∃ rest, (store d.platform).alone p (FormService.submit d public_id payload client referer)
      cs db = some (.error e, db, rest) := by
  unfold intake at h
  unfold FormService.submit
  rw [Store.alone_bind, alone_load_published, Option.bind_some]
  cases hform : db.published public_id with
  | error e' =>
    rw [hform] at h
    cases h
    exact ⟨_, rfl⟩
  | ok form =>
    rw [hform] at h
    dsimp only at h ⊢
    rw [Store.alone_query_bind run_check_key]
    split at h
    · next hlimit =>
      cases h
      rw [if_pos hlimit]
      exact ⟨_, rfl⟩
    · next hlimit =>
      rw [if_neg hlimit]
      cases hanswers : validate_submission d.platform form.schema payload with
      | error problems =>
        rw [hanswers] at h
        cases h
        exact ⟨_, rfl⟩
      | ok answers =>
        rw [hanswers] at h
        cases h

/-- What a submission writes that passes it. -/
theorem alone_submit_of_ok
    (h : intake d db public_id ((cs 1).id == 0) payload = .ok (form, answers)) :
    (store d.platform).alone p (FormService.submit d public_id payload client referer) cs db =
      let n := new_submission form payload answers client referer
      let files := file_answers form.schema answers
      ((store d.platform).alone p (if files.isEmpty then FormService.insert_submission n
        else FormService.insert_claiming_files n files) (fun n => cs (n + 2)) db).map
          fun (y, rest) =>
            (y.map fun id => ⟨id, form.success_message, form.redirect_url⟩, rest) := by
  unfold intake at h
  unfold FormService.submit
  rw [Store.alone_bind, alone_load_published, Option.bind_some]
  cases hform : db.published public_id with
  | error e' =>
    rw [hform] at h
    cases h
  | ok form' =>
    rw [hform] at h
    dsimp only at h ⊢
    rw [Store.alone_query_bind run_check_key]
    split at h
    · cases h
    · next hlimit =>
      rw [if_neg hlimit]
      cases hanswers : validate_submission d.platform form'.schema payload with
      | error problems =>
        rw [hanswers] at h
        cases h
      | ok answers' =>
        rw [hanswers] at h
        cases h
        dsimp only
        split
        · rw [Store.alone_bind]
          rcases (store d.platform).alone p _ _ db with - | ⟨y | id, rest⟩ <;> rfl
        · rw [Store.alone_bind]
          rcases (store d.platform).alone p _ _ db with - | ⟨y | id, rest⟩ <;> rfl

/-- **How a submission ends**: it does not pass the first gate, or not the second, or it is
stored. -/
theorem of_alone_submit {y : Except FormError SubmissionAccepted}
    (h : (store d.platform).alone p (FormService.submit d public_id payload client referer) cs db =
      some (y, db', rest)) :
    (∃ e, intake d db public_id ((cs 1).id == 0) payload = .error e ∧ y = .error e ∧ db' = db) ∨
    ∃ form answers, intake d db public_id ((cs 1).id == 0) payload = .ok (form, answers) ∧
      ((∃ e issued, admission db (new_submission form payload answers client referer)
          (file_answers form.schema answers) = .error e ∧ y = .error e ∧
          db' = { db.unlock p with issued := issued }) ∨
        ∃ id n claimed, admission db (new_submission form payload answers client referer)
          (file_answers form.schema answers) = .ok (n, claimed) ∧ db.unused id = true ∧
          y = .ok ⟨id, form.success_message, form.redirect_url⟩ ∧
          db' = db.stored p (n.row id db.clock) (n.queued db id db.clock) claimed) := by
  cases hintake : intake d db public_id ((cs 1).id == 0) payload with
  | error e =>
    obtain ⟨rest', hend⟩ := alone_submit_of_error (p := p) client referer hintake
    rw [hend] at h
    cases h
    exact .inl ⟨e, rfl, rfl, rfl⟩
  | ok passed =>
    obtain ⟨form, answers⟩ := passed
    rw [alone_submit_of_ok hintake] at h
    obtain ⟨⟨z, db₁, cs₁⟩, hstore, heq⟩ := Option.map_eq_some_iff.mp h
    cases heq
    refine .inr ⟨form, answers, rfl, ?_⟩
    cases hfiles : (file_answers form.schema answers).isEmpty with
    | true =>
      rw [hfiles, if_pos rfl] at hstore
      unfold admission
      rw [if_pos hfiles]
      rcases of_alone_insert_submission hstore with ⟨e, hrefused, rfl, rfl⟩ |
        ⟨id, hrefused, hunused, rfl, rfl⟩
      · rw [hrefused]
        exact .inl ⟨_, db.issued, rfl, rfl, rfl⟩
      · rw [hrefused]
        exact .inr ⟨id, _, none, rfl, hunused, rfl, rfl⟩
    | false =>
      rw [hfiles, if_neg Bool.false_ne_true] at hstore
      rcases of_alone_insert_claiming_files hfiles hstore with
        ⟨e, issued, hadmission, rfl, rfl⟩ | ⟨id, n', claimed, hadmission, hunused, rfl, rfl⟩
      · exact .inl ⟨e, issued, hadmission, rfl, rfl⟩
      · exact .inr ⟨id, n', claimed, hadmission, hunused, rfl, rfl⟩

end Alone

end SubmitSnap
