import SubmitSnap.Form.UploadLedger

/-!
# Claiming uploads

A submission with file answers locks the ledger rows it names, checks them, inserts its own row, and
claims the locked rows, all in one transaction. What it has seen at the lock therefore still holds
at the commit: nobody else updates, claims or forgets a row that is locked.

The logic of this module is that argument, in any regime. Its preconditions say what is known when a
claim is executed and when the transaction commits.

## The argument

`ClaimPre` lists what each statement may rely on when it is issued, and two of the entries carry
the weight. A claim is issued by a process that has locked an unclaimed row for each key it names
(`NamesUploads`), and a commit by one that still holds the rows it is about to claim
(`StoresSubmission`). Both are facts about rows that are held, and these survive whatever the
others do: to change or remove a row of the ledger one has to find it free (`upload_fate`), and it
is not free while it is held (`mem_uploads_of_held`).

Looking is not enough here. A row that was merely read at the check could be claimed by somebody
else before the commit; what prevents it is that the check reads the rows it has locked.

## Main definitions

* `HoldsUpload` — a process keeps others from writing a ledger row.
* `NamesUploads`, `StoresSubmission` — what is known at the claim and at the commit.
* `claimLogic` — locked rows stay as they are.

## Main results

* `wp_claimsUploads` — the requests keep to these preconditions.
-/

namespace SubmitSnap

open Interleave
open Interleave.Script (ret when mapError result forEach)
open FormService (submission_writes)

/-! ### Locked rows

A row can be held in two strengths. The lookup takes `FOR UPDATE`, the claim `FOR NO KEY UPDATE`
on what it finds; either of them keeps other writers away, and that is all that matters here. -/

/-- `p` has locked the ledger row `id` against writes. -/
def HoldsUpload (p : ℕ) (id : Uuid) (ls : Locks Row) : Prop :=
  ls.Holds p (.file_upload id) .update ∨ ls.Holds p (.file_upload id) .noKeyUpdate

section Locks

variable {p p' : ℕ} {id : Uuid} {ls ls' : Locks Row} {mode : LockMode} {db : Database}

theorem HoldsUpload.moved (h : HoldsUpload p id ls) (hls : Locks.Moved p' ls ls') (hne : p ≠ p') :
    HoldsUpload p id ls' :=
  h.imp (fun h => hls.holds h hne) fun h => hls.holds h hne

/-- Only one process holds a row. -/
theorem HoldsUpload.unique (h : HoldsUpload p id ls) (h' : HoldsUpload p' id ls)
    (hls : ls.Exclusive) : p = p' := by
  rcases h with h | h <;> rcases h' with h' | h' <;> exact hls.eq_of_holds h h' rfl

/-- A row that is held is not free for a write of somebody else. -/
theorem HoldsUpload.not_free (h : HoldsUpload p id db.locks) (hne : p ≠ p')
    (hmode : mode = .update ∨ mode = .noKeyUpdate) : db.free p' (.file_upload id) mode = false := by
  rcases hmode with rfl | rfl <;> rcases h with h | h <;> exact Locks.not_grantable h hne rfl

/-- Taking more locks keeps what one has, and adds what was asked for. -/
theorem Database.lockAll_holds (p : ℕ) (mode : LockMode) (rows : List Row) (db : Database) :
    (∀ {row mode'}, db.locks.Holds p row mode' →
      (db.lockAll p mode rows).locks.Holds p row mode') ∧
      ∀ row ∈ rows, (db.lockAll p mode rows).locks.Holds p row mode := by
  induction rows generalizing db with
  | nil => exact ⟨id, fun _ h => absurd h List.not_mem_nil⟩
  | cons row rows ih =>
    obtain ⟨hkeep, hnew⟩ := ih (db.lock p row mode)
    refine ⟨fun h => hkeep h.acquire, fun row' hrow' => ?_⟩
    rcases List.mem_cons.mp hrow' with rfl | hrow'
    · exact hkeep Locks.holds_acquire_self
    · exact hnew row' hrow'

end Locks

/-! ### What is known

What a submission knows grows in two steps. Before the insert it holds the rows its answers name;
after the claim it also holds the list of identifiers it is about to write. Both are stated of the
database at the time, and both last while the locks do. -/

/-- `files` answers the file fields of a payload that fits a form, each from an unclaimed row of
that form and field, held by `p`. -/
structure NamesUploads (P : Platform) (db : Database) (p : ℕ) (form : FormRecord) (data : Map)
    (files : List (String × FileMetadata)) : Prop where
  mem : form ∈ db.forms.rows
  valid : ∃ payload, validate_submission P form.schema payload = .ok data
  answers : files.map (fun file => (file.1, file.2.key)) = file_answers form.schema data
  held : ∀ file ∈ files, ∃ u ∈ db.file_uploads.rows, HoldsUpload p u.id db.locks ∧
    u.submission_id = none ∧ u.form_id = form.id ∧ u.field_key = file.1 ∧ u.metadata = file.2

/-- The submission `row` fits its form, and claims the rows `ids`, which `p` holds; those of its
files are among them. -/
structure StoresSubmission (P : Platform) (db : Database) (p : ℕ) (form : FormRecord)
    (row : SubmissionRecord) (ids : List Uuid) : Prop where
  form_id : row.form_id = form.id
  names : NamesUploads P db p form row.data row.files
  held : ∀ id ∈ ids, HoldsUpload p id db.locks ∧
    ∃ u ∈ db.file_uploads.rows, u.id = id ∧ u.submission_id = none
  claimed : ∀ file ∈ row.files, ∃ u ∈ db.file_uploads.rows, u.id ∈ ids ∧
    u.form_id = row.form_id ∧ u.field_key = file.1 ∧ u.metadata = file.2

/-- The commit of a submission, with its claim if it makes one. -/
def SubmissionCommit (P : Platform) (db : Database) (p : ℕ) (writes : List Write) : Prop :=
  ∃ form row event ids, StoresSubmission P db p form row ids ∧
    (writes = submission_writes row event ∧ ids = [] ∨
      writes = submission_writes row event ++ [.claim_uploads ids row.id])

/-- The statements of the requests that make and use claims, each with what is known when it is
issued; `reaps` says whether uploads are reaped at all. -/
def ClaimPre (P : Platform) (reaps : Prop) (p : ℕ) (s : State) : Stmt → Prop
  | .organizations (.access _ _) | .forms (.find_by_public_id _) | .submissions (.insert _ _)
  | .submissions (.delete _ _) | .uploads (.insert _) | .uploads (.lock_for_claim _ _)
  | .uploads (.abandoned _ _) | .begin_tx | .rollback | .now | .generate_key | .check_key _
  | .begin_upload _ | .write_part _ _ | .flush_parts _ | .put_object _ | .abort_upload _
  | .delete_object _ => True
  | .uploads (.forget _) => reaps
  | .uploads (.claim object_keys) => ∃ form data files, NamesUploads P s.db p form data files ∧
    object_keys = files.map fun file => file.2.key
  | .commit writes => SubmissionCommit P s.db p writes
  | _ => False

section Statements

variable {P : Platform} {p p' : ℕ} {r : Request} {q : Stmt} {x : Except Failure q.Reply}
  {c : Choice}
  {s s' : State} {db db' : Database} {u : FileUploadRecord} {G : Regime} {reaps : Prop}

/-- What the commit of a submission does to the tables around it. -/
theorem applyAll_submission_writes (db : Database) (row : SubmissionRecord)
    (event : Option OutboxEvent) :
    (Write.applyAll db (submission_writes row event)).submissions = db.submissions.insertNew row ∧
      (Write.applyAll db (submission_writes row event)).file_uploads = db.file_uploads := by
  cases event <;> exact ⟨rfl, rfl⟩

theorem applyAll_claim (db : Database) (row : SubmissionRecord) (event : Option OutboxEvent)
    (ids : List Uuid) :
    let db' := Write.applyAll db (submission_writes row event ++ [.claim_uploads ids row.id])
    db'.submissions = db.submissions.insertNew row ∧
      db'.file_uploads.rows = db.file_uploads.rows.map fun u =>
        if decide (u.id ∈ ids) then { u with submission_id := some row.id } else u := by
  cases event <;> exact ⟨rfl, rfl⟩

/-- Forms stay as they are. -/
theorem forms_of_claimPre (h : q.run P p c s.db = some (db', x)) (hpre : ClaimPre P reaps p s q) :
    db'.forms = s.db.forms := by
  cases hreach : Part.forms.reachedBy q with
  | false => exact Stmt.footprint .forms hreach h
  | true =>
    cases q with
    | forms q =>
      cases q <;> try exact hpre.elim
      cases h
      rfl
    | organizations q => cases q <;> first | exact hpre.elim | cases hreach
    | _ => cases hreach

/-- What becomes of a ledger row: it stays as it is, or a submission claims it, or its submission is
deleted, or it is forgotten. Whoever changes it finds it free to be locked. -/
theorem upload_fate (h : q.run P p c s.db = some (db', x)) (hpre : ClaimPre P reaps p s q)
    (hu : u ∈ s.db.file_uploads.rows) : u ∈ db'.file_uploads.rows ∨
      (∃ form row event ids, StoresSubmission P s.db p form row ids ∧ u.id ∈ ids ∧
        q = .commit (submission_writes row event ++ [.claim_uploads ids row.id])) ∨
      (∃ organization_id id, q = .submissions (.delete organization_id id) ∧
        u.submission_id = some id ∧ s.db.free p (.file_upload u.id) .noKeyUpdate = true) ∨
      (q = .uploads (.forget u.id) ∧ s.db.free p (.file_upload u.id) .update = true) := by
  cases hreach : Part.file_uploads.reachedBy q with
  | false =>
    have hsame : db'.file_uploads = s.db.file_uploads := Stmt.footprint .file_uploads hreach h
    exact .inl (hsame ▸ hu)
  | true =>
    cases q with
    | commit writes =>
      cases h
      obtain ⟨form, row, event, ids, hstores, ⟨rfl, -⟩ | rfl⟩ := hpre
      · left
        change u ∈ (Write.applyAll s.db _).file_uploads.rows
        rw [(applyAll_submission_writes s.db row event).2]
        exact hu
      · by_cases hmem : u.id ∈ ids
        · exact .inr (.inl ⟨form, row, event, ids, hstores, hmem, rfl⟩)
        · left
          change u ∈ (Write.applyAll s.db _).file_uploads.rows
          rw [(applyAll_claim s.db row event ids).2]
          exact List.mem_map.mpr ⟨u, hu, by simp [hmem]⟩
    | submissions q =>
      cases q with
      | insert n now =>
        simp only [Stmt.run, SubmissionStmt.run] at h
        (repeat' split at h) <;> cases h <;> exact .inl hu
      | delete organization_id id =>
        simp only [Stmt.run, SubmissionStmt.run] at h
        (repeat' split at h) <;> cases h
        · exact .inl hu
        · next hfree =>
          by_cases hsub : u.submission_id = some id
          · have hrow := List.all_eq_true.mp (Bool.and_eq_true_iff.mp hfree).2 u hu
            refine .inr (.inr (.inl ⟨organization_id, id, rfl, hsub, ?_⟩))
            simpa [hsub] using hrow
          · refine .inl (List.mem_map.mpr ⟨u, hu, if_neg ?_⟩)
            rw [Option.any_eq_true]
            rintro ⟨id', hid', heq⟩
            rw [hid', beq_iff_eq.mp heq] at hsub
            exact hsub rfl
      | _ => exact hpre.elim
    | uploads q =>
      cases q with
      | insert upload =>
        rcases UploadStmt.run_insert h with ⟨-, rfl⟩ | ⟨row, -, -, -, -, -, rfl⟩
        · exact .inl hu
        · exact .inl (Table.mem_insertNew_of_mem hu)
      | lock_for_claim form_id object_keys =>
        simp only [Stmt.run, UploadStmt.run] at h
        split at h <;> cases h
        obtain ⟨ls, hlocks⟩ := Database.lockAll_eq p .update _ s.db
        rw [hlocks]
        exact .inl hu
      | claim object_keys =>
        simp only [Stmt.run, UploadStmt.run] at h
        split at h <;> cases h
        obtain ⟨ls, hlocks⟩ := Database.lockAll_eq p .noKeyUpdate _ s.db
        rw [hlocks]
        exact .inl hu
      | abandoned older_than limit =>
        cases h
        exact .inl hu
      | forget id =>
        simp only [Stmt.run, UploadStmt.run] at h
        split at h
        · next hfree =>
          cases h
          by_cases heq : u.id = id
          · rw [← heq] at hfree ⊢
            exact .inr (.inr (.inr ⟨rfl, hfree⟩))
          · exact .inl (Table.mem_deleteWhere.mpr ⟨hu, beq_eq_false_iff_ne.mpr heq⟩)
        · cases h
    | forms q | organizations q => cases q <;> first | exact hpre.elim | cases hreach
    | _ => cases hreach

/-- **A row that is held stays as it is**, whatever the others do. -/
theorem mem_uploads_of_held (h : q.run P p c s.db = some (db', x)) (hpre : ClaimPre P reaps p s q)
    (hls : s.db.locks.Exclusive) (hheld : HoldsUpload p' u.id s.db.locks) (hne : p' ≠ p)
    (hu : u ∈ s.db.file_uploads.rows) : u ∈ db'.file_uploads.rows := by
  rcases upload_fate h hpre hu with hu' | ⟨_, _, _, _, hstores, hid, -⟩ | ⟨_, _, -, -, hfree⟩ |
    ⟨-, hfree⟩
  · exact hu'
  · exact absurd (hheld.unique (hstores.held u.id hid).1 hls) hne
  · rw [hheld.not_free hne (.inr rfl)] at hfree
    cases hfree
  · rw [hheld.not_free hne (.inl rfl)] at hfree
    cases hfree

/-- What `p` may count on the others for: the forms stay, and so do the rows it holds. -/
structure KeepsHeld (p : ℕ) (s s' : State) : Prop where
  forms : s'.db.forms = s.db.forms
  held : ∀ id, HoldsUpload p id s.db.locks → HoldsUpload p id s'.db.locks ∧
    ∀ u ∈ s.db.file_uploads.rows, u.id = id → u ∈ s'.db.file_uploads.rows

/-- The logic of claims, in any regime. Its invariant says no more than that locks exclude each
other; what a submission knows about its rows is in the preconditions, and it lasts because
`KeepsHeld` is what every process grants the others. -/
def claimLogic (P : Platform) (G : Regime) : Logic G (store P) where
  inv s := s.db.locks.Exclusive
  rely := KeepsHeld
  pre p _ q s := ClaimPre P (G.spawns .reap_abandoned_uploads) p s q
  rely_refl _ _ := ⟨rfl, fun _ h => ⟨h, fun _ hu _ => hu⟩⟩
  rely_trans h h' := by
    refine ⟨h'.forms.trans h.forms, fun id hid => ?_⟩
    obtain ⟨hheld, hrows⟩ := h.held id hid
    obtain ⟨hheld', hrows'⟩ := h'.held id hheld
    exact ⟨hheld', fun u hu heq => hrows' u (hrows u hu heq) heq⟩
  sound hs hpre h := by
    refine ⟨(locks_moved_of_effect h).exclusive hs, fun p' hne => ?_⟩
    cases h with
    | fail _ =>
      refine ⟨rfl, fun id hid => ⟨hid.moved (.release .refl) hne, fun u hu _ => hu⟩⟩
    | run _ hrun =>
      refine ⟨forms_of_claimPre hrun hpre, fun id hid => ⟨?_, fun u hu heq => ?_⟩⟩
      · exact hid.moved (Stmt.locks_moved hrun) hne
      · exact mem_uploads_of_held hrun hpre hs (heq ▸ hid) hne hu
  stop_sound _ hs := ⟨hs.release, fun p' hne =>
    ⟨rfl, fun _ hid => ⟨hid.moved (.release .refl) hne, fun _ hu _ => hu⟩⟩⟩
  pass_sound hs := ⟨hs, fun _ => ⟨rfl, fun _ hid => ⟨hid, fun _ hu _ => hu⟩⟩⟩

/-! ### What the statements of a claim answer -/

/-- The files a check accepts are those of the answers, each from an unclaimed row of its field. -/
theorem check_file_references_ok {recorded : List FileUploadRecord}
    {answers : List (String × String)} {metadata : List (String × FileMetadata)}
    (h : check_file_references recorded answers = .ok metadata) :
    metadata.map (fun file => (file.1, file.2.key)) = answers ∧
      ∀ file ∈ metadata, ∃ u ∈ recorded, u.submission_id = none ∧ u.field_key = file.1 ∧
        u.metadata = file.2 := by
  induction answers generalizing metadata with
  | nil =>
    cases h
    exact ⟨rfl, fun _ hfile => absurd hfile List.not_mem_nil⟩
  | cons answer answers ih =>
    obtain ⟨field_key, object_key⟩ := answer
    rw [check_file_references] at h
    split at h
    · cases h
    · next u hfind =>
      split at h
      · cases h
      · next hunclaimed =>
        split at h
        · cases h
        · next hfield =>
          cases hrest : check_file_references recorded answers with
          | error e =>
            rw [hrest] at h
            cases h
          | ok rest =>
            rw [hrest] at h
            cases h
            obtain ⟨hanswers, hrows⟩ := ih hrest
            have hkey : u.object_key = object_key := by simpa using List.find?_some hfind
            refine ⟨?_, fun file hfile => ?_⟩
            · rw [List.map_cons, hanswers, ← hkey]
              rfl
            · rcases List.mem_cons.mp hfile with rfl | hfile
              · refine ⟨u, List.mem_of_find?_eq_some hfind, ?_, by simpa using hfield, rfl⟩
                simpa using hunclaimed
              · exact hrows file hfile

/-- A new submission's row is made of what was asked for. -/
theorem SubmissionStmt.insert_ok {n : NewSubmission} {now : Timestamp}
    {row : SubmissionRecord} {event : Option OutboxEvent}
    (h : (SubmissionStmt.insert n now).run p c db = some (db', .ok (row, event))) :
    (∃ id, row = n.row id now) ∧ db'.forms = db.forms ∧ db'.file_uploads = db.file_uploads ∧
      ∀ {row mode}, db.locks.Holds p row mode → db'.locks.Holds p row mode := by
  simp only [SubmissionStmt.run] at h
  (repeat' split at h) <;> cases h
  all_goals exact ⟨⟨c.id, rfl⟩, rfl, rfl, fun h => h.acquire.acquire⟩

/-- What a claim is handed is locked, and of its form. -/
theorem UploadStmt.lock_for_claim_ok {form_id : Uuid} {object_keys : List String}
    {recorded : List FileUploadRecord}
    (h : (UploadStmt.lock_for_claim form_id object_keys).run p c db = some (db', .ok recorded)) :
    db'.forms = db.forms ∧ ∀ u ∈ recorded, u ∈ db'.file_uploads.rows ∧
      HoldsUpload p u.id db'.locks ∧ u.form_id = form_id := by
  simp only [UploadStmt.run] at h
  split at h <;> cases h
  obtain ⟨ls, hls⟩ := Database.lockAll_eq p .update
    ((db.file_uploads.rows.filter fun u => u.form_id == form_id && u.object_key ∈ object_keys).map
      fun u => Row.file_upload u.id) db
  have hlocked := (Database.lockAll_holds p .update
    ((db.file_uploads.rows.filter fun u => u.form_id == form_id && u.object_key ∈ object_keys).map
      fun u => Row.file_upload u.id) db).2
  refine ⟨by rw [hls], fun u hu => ?_⟩
  have hmem := (List.mem_insertionSort _).mp hu
  obtain ⟨hrow, hsel⟩ := List.mem_filter.mp hmem
  refine ⟨by rw [hls]; exact hrow, .inl (hlocked _ (List.mem_map_of_mem hmem)), ?_⟩
  exact beq_iff_eq.mp (Bool.and_eq_true_iff.mp hsel).1

/-- What a claim finds are the unclaimed rows of its keys, which are locked now. -/
theorem UploadStmt.claim_ok {object_keys : List String} {ids : List Uuid}
    (h : (UploadStmt.claim object_keys).run p c db = some (db', .ok ids)) :
    ids = (db.file_uploads.rows.filter fun u =>
        u.object_key ∈ object_keys && u.submission_id.isNone).map (·.id) ∧
      db'.forms = db.forms ∧ db'.file_uploads = db.file_uploads ∧
      (∀ {row mode}, db.locks.Holds p row mode → db'.locks.Holds p row mode) ∧
      ∀ id ∈ ids, HoldsUpload p id db'.locks := by
  simp only [UploadStmt.run] at h
  split at h <;> cases h
  obtain ⟨ls, hls⟩ := Database.lockAll_eq p .noKeyUpdate
    (((db.file_uploads.rows.filter fun u => u.object_key ∈ object_keys &&
      u.submission_id.isNone).map (·.id)).map .file_upload) db
  obtain ⟨hkeep, hlocked⟩ := Database.lockAll_holds p .noKeyUpdate
    (((db.file_uploads.rows.filter fun u => u.object_key ∈ object_keys &&
      u.submission_id.isNone).map (·.id)).map .file_upload) db
  refine ⟨rfl, by rw [hls], by rw [hls], hkeep, fun id hid => ?_⟩
  exact .inr (hlocked _ (List.mem_map_of_mem hid))

/-! ### Stability

What is known of held rows stays known, whatever the others do: they find these rows locked, and
the forms are nobody's to change in these runs. -/

variable {form : FormRecord} {data : Map} {files : List (String × FileMetadata)}

/-- What is known of held rows stays so while they are held and in the table. -/
theorem NamesUploads.mono (h : NamesUploads P db p form data files) (hforms : db'.forms = db.forms)
    (hheld : ∀ u ∈ db.file_uploads.rows, HoldsUpload p u.id db.locks →
      HoldsUpload p u.id db'.locks ∧ u ∈ db'.file_uploads.rows) :
    NamesUploads P db' p form data files := by
  refine ⟨by rw [hforms]; exact h.mem, h.valid, h.answers, fun file hfile => ?_⟩
  obtain ⟨u, hu, hlock, hrest⟩ := h.held file hfile
  exact ⟨u, (hheld u hu hlock).2, (hheld u hu hlock).1, hrest⟩

theorem NamesUploads.env (h : NamesUploads P s.db p form data files)
    (he : (claimLogic P G).Env p s s') : NamesUploads P s'.db p form data files :=
  h.mono he.rely.forms fun u hu hlock =>
    ⟨(he.rely.held u.id hlock).1, (he.rely.held u.id hlock).2 u hu rfl⟩

theorem StoresSubmission.env {row : SubmissionRecord} {ids : List Uuid}
    (h : StoresSubmission P s.db p form row ids) (he : (claimLogic P G).Env p s s') :
    StoresSubmission P s'.db p form row ids := by
  refine ⟨h.form_id, h.names.env he, fun id hid => ?_, fun file hfile => ?_⟩
  · obtain ⟨hlock, u, hu, rfl, hunclaimed⟩ := h.held id hid
    obtain ⟨hlock', hrows⟩ := he.rely.held u.id hlock
    exact ⟨hlock', u, hrows u hu rfl, rfl, hunclaimed⟩
  · obtain ⟨u, hu, hid, hrest⟩ := h.claimed file hfile
    exact ⟨u, (he.rely.held u.id (h.held u.id hid).1).2 u hu rfl, hid, hrest⟩

/-- At the claim, what is found is what the files name, so the commit stores it. -/
theorem NamesUploads.stores {n : NewSubmission} {id : Uuid} {now : Timestamp} {ids : List Uuid}
    (h : NamesUploads P db p form n.data files) (hform : n.form_id = form.id)
    (hfiles : n.files.getD [] = files) {object_keys : List String}
    (hkeys : object_keys = files.map fun file => file.2.key)
    (hrun : (UploadStmt.claim object_keys).run p c db = some (db', .ok ids)) :
    StoresSubmission P db' p form (n.row id now) ids := by
  obtain ⟨hids, hforms, hrows, hkeep, hlocked⟩ := UploadStmt.claim_ok hrun
  have hrowfiles : (n.row id now).files = files := hfiles
  have hmono : NamesUploads P db' p form n.data files := by
    refine h.mono hforms fun u hu hlock => ⟨hlock.imp hkeep hkeep, ?_⟩
    rw [hrows]
    exact hu
  refine ⟨hform, by rw [hrowfiles]; exact hmono, fun id' hid' => ⟨hlocked id' hid', ?_⟩,
    fun file hfile => ?_⟩
  · rw [hids] at hid'
    obtain ⟨u, hu, rfl⟩ := List.mem_map.mp hid'
    obtain ⟨hu, hsel⟩ := List.mem_filter.mp hu
    have hnone := (Bool.and_eq_true_iff.mp hsel).2
    exact ⟨u, by rw [hrows]; exact hu, rfl, Option.isNone_iff_eq_none.mp hnone⟩
  · rw [hrowfiles] at hfile
    obtain ⟨u, hu, -, hunclaimed, hform', hfield, hmeta⟩ := h.held file hfile
    refine ⟨u, by rw [hrows]; exact hu, ?_, hform'.trans hform.symm, hfield, hmeta⟩
    have hkey : u.object_key ∈ object_keys := by
      rw [hkeys]
      exact List.mem_map.mpr ⟨file, hfile, by rw [← hmeta]; rfl⟩
    rw [hids]
    refine List.mem_map_of_mem (List.mem_filter.mpr ⟨hu, ?_⟩)
    simp [hkey, hunclaimed]

end Statements

/-! ### The scripts

Most statements of the requests need nothing and promise nothing (`ClaimFree`). The proof is about
one path: a submission with file answers, from the lock through the check and the insert to the
claim and the commit. -/

/-- The requests that make uploads, claim them and let them go. -/
def Request.claimsUploads : Request → Prop
  | upload _ _ _ _ _ | submit _ _ _ _ | delete_submission _ _ _ | reap_abandoned_uploads => True
  | _ => False

/-- Statements that may be executed at any time. -/
def ClaimFree (P : Platform) (reaps : Prop) (q : Stmt) : Prop := ∀ p s, ClaimPre P reaps p s q

section Scripts

variable {d : Deployment} {P : Platform} {G : Regime} {reaps : Prop} {p : ℕ} {r : Request}
  {s s' : State} {form : FormRecord}

/-- Nothing is promised about what a request answers. -/
def NoPost {α ε : Type} : Except ε α → State → Prop := fun _ _ => True

theorem wp_of_claimFree {ε α : Type} {x : Code ε α}
    (hx : x.Issues (ClaimFree P (G.spawns .reap_abandoned_uploads))) :
    (claimLogic P G).wp p r x NoPost s :=
  Logic.wp_of_does (ClaimFree P (G.spawns .reap_abandoned_uploads)) (fun _ _ => True)
    (fun _ => True) (fun _ => True)
    (fun _ _ => trivial) (fun hq _ _ => hq _ _) (fun _ _ _ _ _ => ⟨trivial, trivial⟩)
    (fun _ _ => trivial) hx.does trivial

theorem load_published_claimFree (public_id : String) :
    (FormService.load_published public_id).Issues (ClaimFree P reaps) :=
  FormService.load_published_issues fun _ _ => trivial

theorem upload_claimFree (public_id field_key : String) (filename declared_type : Option String)
    (body : List Chunk) :
    (FormService.upload d public_id field_key filename declared_type body).Issues
      (ClaimFree P reaps) := by
  have hrecord : ∀ upload, (FormService.record_upload upload).Issues (ClaimFree P reaps) := by
    refine fun upload => (Script.issues_attempt fun _ _ => trivial).bind fun x => ?_
    cases x with
    | ok row => trivial
    | error e => exact (Script.issues_attempt fun _ _ => trivial).bind fun _ => trivial
  unfold FormService.upload
  split
  · trivial
  refine (load_published_claimFree public_id).bind fun form =>
    (Script.issues_query fun _ _ => trivial).bind fun allowed => ?_
  split
  · trivial
  cases FormService.upload_target form field_key declared_type with
  | error e => trivial
  | ok target =>
    refine (Script.issues_query fun _ _ => trivial).bind fun key =>
      (Script.issues_query fun _ _ => trivial).bind fun _ =>
        (FormService.stream_upload_issues (fun _ _ _ => trivial) _ _ _ _).result.bind fun y => ?_
    cases y with
    | error e => exact (Script.issues_attempt fun _ _ => trivial).bind fun _ => trivial
    | ok size =>
      exact (FormService.finish_issues (fun _ _ => trivial) (fun _ _ => trivial)
        fun _ _ => trivial).bind fun _ => hrecord _

theorem delete_submission_claimFree (organization_id submission_id actor_id : Uuid) :
    (FormService.delete_submission organization_id submission_id actor_id).Issues
      (ClaimFree P reaps) := by
  refine Script.Issues.bind ?_ fun _ =>
    (Script.issues_query fun _ _ => trivial).bind fun found => ?_
  · refine Script.Issues.bind (Script.Issues.mapError ?_) fun standing => Script.Issues.mapError ?_
    · refine (Script.issues_query fun _ _ => trivial).bind fun found => ?_
      cases found with
      | none => trivial
      | some row =>
        dsimp only
        split <;> trivial
    · unfold OrganizationService.require_manager
      split <;> trivial
  · split <;> trivial

theorem reap_abandoned_uploads_claimFree (hreaps : reaps) :
    (FormService.reap_abandoned_uploads d).Issues (ClaimFree P reaps) := by
  unfold FormService.reap_abandoned_uploads
  split
  · trivial
  refine (Script.issues_query fun _ _ => trivial).bind fun now =>
    (Script.issues_query fun _ _ => trivial).bind fun abandoned => Script.Issues.forEach ?_ _
  refine fun u => (Script.issues_attempt fun _ _ => trivial).bind fun x => ?_
  cases x with
  | error e => trivial
  | ok _ => exact Script.issues_query fun _ _ => hreaps

/-- A submission with no file answers is stored as it is. -/
theorem claimLogic_insert_submission {n : NewSubmission} (hs : s.db.locks.Exclusive)
    (hform : n.form_id = form.id) (hnames : NamesUploads P s.db p form n.data (n.files.getD []))
    (hfiles : n.files.getD [] = []) :
    (claimLogic P G).wp p r (FormService.insert_submission n) NoPost s := by
  unfold FormService.insert_submission transaction
  refine Logic.wp_ensuring hs ?_
  refine Logic.wp_query_bind fun s₁ he₁ => ⟨trivial, fun now s₂ hx₂ hs₂ => ?_,
    fun e s₂ _ _ s₃ _ s₄ _ => ⟨trivial, fun _ _ _ _ _ _ => trivial⟩⟩
  have hnames₂ : NamesUploads P s₂.db p form n.data (n.files.getD []) := by
    obtain ⟨-, c, db, hrun, rfl⟩ := hx₂.of_ok
    cases hrun
    have hnames₁ := hnames.env he₁
    exact hnames₁
  refine Logic.wp_query_bind fun s₃ he₃ => ⟨trivial, fun inserted s₄ hx₄ hs₄ => ?_,
    fun e s₄ _ _ s₅ _ s₆ _ => ⟨trivial, fun _ _ _ _ _ _ => trivial⟩⟩
  obtain ⟨row, event⟩ := inserted
  obtain ⟨-, c, db, hrun, rfl⟩ := hx₄.of_ok
  have hinsert : (SubmissionStmt.insert n now).run p c s₃.db = some (db, .ok (row, event)) := hrun
  obtain ⟨⟨id, rfl⟩, hforms, hrows, hkeep⟩ := SubmissionStmt.insert_ok hinsert
  have hstores : StoresSubmission P db p form (n.row id now) [] := by
    refine ⟨hform, ?_, fun _ h => absurd h List.not_mem_nil, ?_⟩
    · refine (hnames₂.env he₃).mono hforms fun u hu hlock => ⟨hlock.imp hkeep hkeep, ?_⟩
      rw [hrows]
      exact hu
    · intro file hfile
      change file ∈ n.files.getD [] at hfile
      rw [hfiles] at hfile
      exact absurd hfile List.not_mem_nil
  refine Logic.wp_query_bind fun s₅ he₅ => ⟨?_, fun _ s₆ _ hs₆ => ?_,
    fun e s₆ _ _ s₇ _ s₈ _ => ⟨trivial, fun _ _ _ _ _ _ => trivial⟩⟩
  · exact ⟨form, n.row id now, event, [], hstores.env he₅, .inl ⟨rfl, rfl⟩⟩
  · exact fun s₇ _ s₈ _ => ⟨trivial, fun _ _ _ _ _ _ => trivial⟩

/-- A submission with file answers holds the rows it names from the lock to the commit. -/
theorem claimLogic_insert_claiming_files {n : NewSubmission} {payload : Map}
    (hs : s.db.locks.Exclusive) (hform : n.form_id = form.id) (hmem : form ∈ s.db.forms.rows)
    (hvalid : validate_submission P form.schema payload = .ok n.data) :
    (claimLogic P G).wp p r
      (FormService.insert_claiming_files n (file_answers form.schema n.data)) NoPost s := by
  unfold FormService.insert_claiming_files transaction
  refine Logic.wp_ensuring hs ?_
  refine Logic.wp_query_bind fun s₁ he₁ => ⟨trivial, fun now s₂ hx₂ hs₂ => ?_,
    fun e s₂ _ _ s₃ _ s₄ _ => ⟨trivial, fun _ _ _ _ _ _ => trivial⟩⟩
  have hforms₂ : s₂.db.forms = s.db.forms := by
    obtain ⟨-, c, db, hrun, rfl⟩ := hx₂.of_ok
    cases hrun
    exact he₁.rely.forms
  refine Logic.wp_query_bind fun s₃ he₃ => ⟨trivial, fun recorded s₄ hx₄ hs₄ => ?_,
    fun e s₄ _ _ s₅ _ s₆ _ => ⟨trivial, fun _ _ _ _ _ _ => trivial⟩⟩
  cases hcheck : check_file_references recorded (file_answers form.schema n.data) with
  | error e => exact fun s₅ _ s₆ _ => ⟨trivial, fun _ _ _ _ _ _ => trivial⟩
  | ok metadata =>
    obtain ⟨hanswers, hrecorded⟩ := check_file_references_ok hcheck
    have hnames₄ : NamesUploads P s₄.db p form n.data metadata := by
      obtain ⟨-, c, db, hrun, rfl⟩ := hx₄.of_ok
      have hlock : (UploadStmt.lock_for_claim n.form_id _).run p c s₃.db =
        some (db, .ok recorded) := hrun
      obtain ⟨hforms, hlocked⟩ := UploadStmt.lock_for_claim_ok hlock
      refine ⟨?_, ⟨payload, hvalid⟩, hanswers, fun file hfile => ?_⟩
      · change form ∈ db.forms.rows
        rw [hforms, he₃.rely.forms, hforms₂]
        exact hmem
      · obtain ⟨u, hu, hunclaimed, hfield, hmeta⟩ := hrecorded file hfile
        obtain ⟨hrow, hheld, hrowform⟩ := hlocked u hu
        exact ⟨u, hrow, hheld, hunclaimed, hrowform.trans hform, hfield, hmeta⟩
    refine Logic.wp_query_bind fun s₅ he₅ => ⟨trivial, fun inserted s₆ hx₆ hs₆ => ?_,
      fun e s₆ _ _ s₇ _ s₈ _ => ⟨trivial, fun _ _ _ _ _ _ => trivial⟩⟩
    obtain ⟨row, event⟩ := inserted
    obtain ⟨-, c, db, hrun, rfl⟩ := hx₆.of_ok
    have hinsert : (SubmissionStmt.insert { n with files := some metadata } now).run p c s₅.db =
      some (db, .ok (row, event)) := hrun
    obtain ⟨⟨id, rfl⟩, hforms, hrows, hkeep⟩ := SubmissionStmt.insert_ok hinsert
    have hnames₆ : NamesUploads P db p form n.data metadata := by
      refine (hnames₄.env he₅).mono hforms fun u hu hlock => ⟨hlock.imp hkeep hkeep, ?_⟩
      rw [hrows]
      exact hu
    have hkeys : (file_answers form.schema n.data).map (·.2) =
        metadata.map fun file => file.2.key := by
      rw [← hanswers, List.map_map]
      rfl
    refine Logic.wp_query_bind fun s₇ he₇ => ⟨?_, fun claimed s₈ hx₈ hs₈ => ?_,
      fun e s₈ _ _ s₉ _ s₁₀ _ => ⟨trivial, fun _ _ _ _ _ _ => trivial⟩⟩
    · exact ⟨form, n.data, metadata, hnames₆.env he₇, hkeys⟩
    split
    · exact fun s₉ _ s₁₀ _ => ⟨trivial, fun _ _ _ _ _ _ => trivial⟩
    obtain ⟨-, c', db', hrun', rfl⟩ := hx₈.of_ok
    have hclaim : (UploadStmt.claim ((file_answers form.schema n.data).map (·.2))).run p c' s₇.db =
      some (db', .ok claimed) := hrun'
    have hstores : StoresSubmission P db' p form
        (NewSubmission.row { n with files := some metadata } id now) claimed :=
      (hnames₆.env he₇).stores hform rfl hkeys hclaim
    refine Logic.wp_query_bind fun s₉ he₉ => ⟨?_, fun _ s₁₀ _ hs₁₀ => ?_,
      fun e s₁₀ _ _ s₁₁ _ s₁₂ _ => ⟨trivial, fun _ _ _ _ _ _ => trivial⟩⟩
    · exact ⟨form, _, event, claimed, hstores.env he₉, .inr rfl⟩
    · exact fun s₁₁ _ s₁₂ _ => ⟨trivial, fun _ _ _ _ _ _ => trivial⟩

theorem claimLogic_submit (hs : s.db.locks.Exclusive) (public_id : String) (payload : Map)
    (client : ClientInfo) (referer : Option String) :
    (claimLogic d.platform G).wp p r (FormService.submit d public_id payload client referer)
      NoPost s := by
  have hloaded : (claimLogic d.platform G).wp p r (FormService.load_published public_id)
      (fun y s' => ∀ form, y = .ok form → form ∈ s'.db.forms.rows) s := by
    refine Logic.wp_query_bind fun s₁ he₁ => ⟨trivial, fun found s₂ hx₂ hs₂ => ?_,
      fun e s₂ _ _ s₃ _ form heq => by cases heq⟩
    cases found with
    | none =>
      intro s₃ _ form heq
      cases heq
    | some form =>
      dsimp only
      split
      · intro s₃ he₃ form' heq
        cases heq
        obtain ⟨-, c, db, hrun, rfl⟩ := hx₂.of_ok
        simp only [store, Stmt.run, FormStmt.run, Option.some.injEq, Prod.mk.injEq,
          Except.ok.injEq] at hrun
        obtain ⟨rfl, hfind⟩ := hrun
        rw [he₃.rely.forms]
        exact List.mem_of_find?_eq_some hfind
      · intro s₃ _ form heq
        cases heq
      · intro s₃ _ form heq
        cases heq
  refine Logic.wp_bind hs hloaded (fun form s₁ hs₁ hform => ?_) fun _ _ _ _ => trivial
  have hform₁ := hform form rfl
  refine Logic.wp_query_bind fun s₂ he₂ => ⟨trivial, fun allowed s₃ hx₃ hs₃ => ?_,
    fun _ _ _ _ _ _ => trivial⟩
  have hform₃ : form ∈ s₃.db.forms.rows := by
    obtain ⟨-, c, db, hrun, rfl⟩ := hx₃.of_ok
    cases hrun
    rw [Shared.push_db, he₂.rely.forms]
    exact hform₁
  split
  · exact fun _ _ => trivial
  cases hvalid : validate_submission d.platform form.schema payload with
  | error problems => exact fun _ _ => trivial
  | ok answers =>
    dsimp only
    split
    · next hempty =>
      have hform : (FormService.new_submission form payload answers client referer).form_id =
          form.id := rfl
      refine Logic.wp_bind hs₃ (claimLogic_insert_submission hs₃ hform ?_ rfl)
        (fun _ _ _ _ _ _ => trivial) fun _ _ _ _ => trivial
      exact ⟨hform₃, ⟨payload, hvalid⟩, (List.isEmpty_iff.mp hempty).symm,
        fun _ h => absurd h List.not_mem_nil⟩
    · have hstored := claimLogic_insert_claiming_files (G := G) (p := p) (r := r)
        (n := FormService.new_submission form payload answers client referer) hs₃ rfl hform₃ hvalid
      exact Logic.wp_bind hs₃ hstored (fun _ _ _ _ _ _ => trivial) fun _ _ _ _ => trivial

/-- **A submission commits what it has checked**: the rows it claims are unclaimed and its own. -/
theorem wp_claimsUploads (hG : G.spawns r) (hr : r.claimsUploads) (hs : s.db.locks.Exclusive) :
    (claimLogic d.platform G).wp p r (Request.code d r) NoPost s := by
  cases r with
  | upload public_id field_key filename declared_type body =>
    exact wp_of_claimFree (upload_claimFree public_id field_key filename declared_type body)
  | submit public_id payload client referer =>
    exact claimLogic_submit hs public_id payload client referer
  | delete_submission organization_id submission_id actor_id =>
    exact wp_of_claimFree
      (delete_submission_claimFree organization_id submission_id actor_id)
  | reap_abandoned_uploads => exact wp_of_claimFree (reap_abandoned_uploads_claimFree hG)
  | _ => exact hr.elim

end Scripts

end SubmitSnap
