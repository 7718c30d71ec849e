import SubmitSnap.Form.Answers
import SubmitSnap.Form.Claiming
import SubmitSnap.Form.Orphans

/-!
# The files of a submission

What `submissions.files` says and what the ledger says agree: the file answers of a submission are
exactly its attachments, each attachment is described as its ledger row describes it, and that row
is claimed by that submission and by nobody else.

Uploads, submissions and submission deletions keep it, in any interleaving, because a submission
checks rows it has locked and because two rows never share an object key. For the same reason the
claim always finds as many rows as it asks for, and the branch for a smaller number is dead.

## The argument

When a submission commits, the rows it claims are the ones it has checked (`StoresSubmission`), so
at that moment the files are sound. From then on a row that is claimed only changes if its
submission goes or if somebody forgets it, and there is no reaper here to do so. Submissions are
stored once and their files are never edited, so nothing else can come between the two.

That a claim finds all its rows is a counting argument. The rows it finds are mapped to the keys
it asks for; distinct rows have distinct keys because keys are unique, and every key is met
because the rows that were checked are still there, still unclaimed and still locked.

## Main definitions

* `SoundFiles`, `FilesSound` — a submission's files agree with its answers and with the ledger.
* `FilesClaimed` — the ledger row of every file of a submission is claimed by it.

## Main results

* `filesSound_of_reaches` — in every run without a reaper the files are sound, no two submissions
  share one, and every claim finds all its rows.
-/

namespace SubmitSnap

open Interleave
open FormService (submission_writes)

/-! ### What agrees with what -/

/-- Two ledger rows never share an object key. -/
def KeysUnique (db : Database) : Prop :=
  ∀ u ∈ db.file_uploads.rows, ∀ u' ∈ db.file_uploads.rows, u.object_key = u'.object_key → u = u'

/-- The file is recorded in the ledger as it is in the submission, and the row is claimed. -/
def Recorded (db : Database) (sub : SubmissionRecord) (file : String × FileMetadata) : Prop :=
  ∃ u ∈ db.file_uploads.rows, u.submission_id = some sub.id ∧ u.form_id = sub.form_id ∧
    u.field_key = file.1 ∧ u.metadata = file.2

/-- The files of a submission are its answers to the file fields of `form`, which it fits, and the
ledger says the same of each. -/
structure SoundFiles (P : Platform) (db : Database) (form : FormRecord) (sub : SubmissionRecord) :
    Prop where
  form_id : form.id = sub.form_id
  valid : ∃ payload, validate_submission P form.schema payload = .ok sub.data
  has : ∀ field ∈ form.schema.fields, field.field_type = .file →
    ((sub.data.get field.key).isSome ↔ (sub.files.lookup field.key).isSome)
  key : ∀ field ∈ form.schema.fields, field.field_type = .file → ∀ file,
    sub.files.lookup field.key = some file → sub.data.get field.key = some (.string file.key)
  recorded : ∀ file ∈ sub.files, Recorded db sub file

/-- The files of every submission are sound for the form they were validated against. -/
def FilesSound (P : Platform) (db : Database) : Prop :=
  ∀ sub ∈ db.submissions.rows, ∃ form ∈ db.forms.rows, SoundFiles P db form sub

/-- Every file of every submission is recorded as claimed by it. -/
def FilesClaimed (db : Database) : Prop :=
  ∀ sub ∈ db.submissions.rows, ∀ file ∈ sub.files, Recorded db sub file

/-- No two submissions carry one object key. -/
def FilesApart (db : Database) : Prop :=
  ∀ sub ∈ db.submissions.rows, ∀ sub' ∈ db.submissions.rows, ∀ file ∈ sub.files,
    ∀ file' ∈ sub'.files, file.2.key = file'.2.key → sub = sub'

/-- A claim that was answered found a row for each of its keys. -/
def ClaimsAll : Event → Prop
  | ⟨_, _, _, .uploads (.claim object_keys), .ok claimed⟩ => claimed.length = object_keys.length
  | _ => True

section Claims

variable {P : Platform} {d : Deployment} {p p' : ℕ} {r : Request} {q : Stmt}
  {x : Except Failure q.Reply} {c : Choice} {s s' : State} {db db' : Database}
  {u u' : FileUploadRecord} {sub : SubmissionRecord} {form : FormRecord} {data : Map}
  {files : List (String × FileMetadata)} {file : String × FileMetadata} {G : Regime} {reaps : Prop}

/-- The key names the row, and the row names the submission. -/
theorem FilesClaimed.apart (h : FilesClaimed db) (hkeys : KeysUnique db) : FilesApart db := by
  intro sub hsub sub' hsub' file hfile file' hfile' heq
  obtain ⟨u, hu, hclaimed, -, -, hmeta⟩ := h sub hsub file hfile
  obtain ⟨u', hu', hclaimed', -, -, hmeta'⟩ := h sub' hsub' file' hfile'
  have hkey : u.object_key = u'.object_key := by
    have hkey : u.metadata.key = u'.metadata.key := by rw [hmeta, hmeta', heq]
    exact hkey
  obtain rfl := hkeys u hu u' hu' hkey
  rw [hclaimed] at hclaimed'
  exact Table.eq_of_key_eq _ hsub hsub' (Option.some.inj hclaimed')

theorem FilesSound.of_eq (h : FilesSound P db) (hsubmissions : db'.submissions = db.submissions)
    (hforms : db'.forms = db.forms) (huploads : db'.file_uploads = db.file_uploads) :
    FilesSound P db' := by
  intro sub hsub
  rw [hsubmissions] at hsub
  obtain ⟨form, hform, hsound⟩ := h sub hsub
  rw [hforms]
  refine ⟨form, hform, { hsound with recorded := fun file hfile => ?_ }⟩
  unfold Recorded
  rw [huploads]
  exact hsound.recorded file hfile

theorem FilesSound.claimed (h : FilesSound P db) : FilesClaimed db := by
  intro sub hsub file hfile
  obtain ⟨form, -, hsound⟩ := h sub hsub
  exact hsound.recorded file hfile

/-! #### Keys stay unique -/

/-- A row that was written is the first of its key. -/
theorem UploadStmt.insert_new {upload : NewFileUpload} {row : FileUploadRecord}
    (h : (UploadStmt.insert upload).run p c db = some (db', .ok row)) :
    ∀ u ∈ db.file_uploads.rows, u.object_key ≠ upload.object_key := by
  simp only [UploadStmt.run] at h
  split at h
  · split at h
    · cases h
    · split at h
      · cases h
      · next hnew =>
        intro u hu heq
        exact hnew (List.any_eq_true.mpr ⟨u, hu, beq_iff_eq.mpr heq⟩)
  · cases h

theorem keysUnique_of_run (hkeys : KeysUnique db) (h : q.run P p c db = some (db', x)) :
    KeysUnique db' := by
  by_cases hq : ∃ upload, q = .uploads (.insert upload)
  · obtain ⟨upload, rfl⟩ := hq
    rcases UploadStmt.run_insert h with ⟨-, rfl⟩ | ⟨row, rfl, hkey, -, -, -, rfl⟩
    · exact hkeys
    · have hnew : ∀ u ∈ db.file_uploads.rows, u.object_key ≠ row.object_key := by
        rw [hkey]
        exact UploadStmt.insert_new h
      intro u hu u' hu' heq
      rcases Table.mem_insertNew.mp hu with hold | ⟨rfl, -⟩ <;>
        rcases Table.mem_insertNew.mp hu' with hold' | ⟨rfl, -⟩
      · exact hkeys u hold u' hold' heq
      · exact absurd heq (hnew u hold)
      · exact absurd heq.symm (hnew u' hold')
      · rfl
  · have hsame := Stmt.uploads_same (fun upload heq => hq ⟨upload, heq⟩) h
    intro u hu u' hu' heq
    obtain ⟨v, hv, hv_same⟩ := hsame u hu
    obtain ⟨v', hv', hv_same'⟩ := hsame u' hu'
    obtain ⟨hid, hkey⟩ := hv_same.names
    obtain ⟨hid', hkey'⟩ := hv_same'.names
    obtain rfl := hkeys v hv v' hv' (hkey.trans (heq.trans hkey'.symm))
    exact Table.eq_of_key_eq _ hu hu' (hid.symm.trans hid')

/-! #### Claims stay

A claimed row can be given back by a cascade, when its submission is deleted, and then there is no
submission left to lose it. -/

/-- Where a submission comes from: it was there, or this is the commit that stores it. -/
theorem submission_origin (h : q.run P p c s.db = some (db', x)) (hpre : ClaimPre P reaps p s q)
    (hsub : sub ∈ db'.submissions.rows) : sub ∈ s.db.submissions.rows ∨
      ∃ form event ids, StoresSubmission P s.db p form sub ids ∧
        (q = .commit (submission_writes sub event) ∧ ids = [] ∨
          q = .commit (submission_writes sub event ++ [.claim_uploads ids sub.id])) := by
  cases hreach : Part.submissions.reachedBy q with
  | false =>
    have hsame : db'.submissions = s.db.submissions := Stmt.footprint .submissions hreach h
    exact .inl (hsame ▸ hsub)
  | true =>
    cases q with
    | commit writes =>
      cases h
      obtain ⟨form, row, event, ids, hstores, hwrites⟩ := hpre
      have hrows : (Write.applyAll s.db writes).submissions = s.db.submissions.insertNew row := by
        rcases hwrites with ⟨rfl, -⟩ | rfl
        · exact (applyAll_submission_writes s.db row event).1
        · exact (applyAll_claim s.db row event ids).1
      change sub ∈ (Write.applyAll s.db writes).submissions.rows at hsub
      rw [hrows] at hsub
      rcases Table.mem_insertNew.mp hsub with hsub | ⟨rfl, -⟩
      · exact .inl hsub
      · refine .inr ⟨form, event, ids, hstores,
          hwrites.imp (fun ⟨hw, hids⟩ => ⟨by rw [hw], hids⟩) ?_⟩
        exact fun hw => by rw [hw]
    | submissions q =>
      cases q with
      | insert n now =>
        simp only [Stmt.run, SubmissionStmt.run] at h
        (repeat' split at h) <;> cases h <;> exact .inl hsub
      | delete organization_id id =>
        simp only [Stmt.run, SubmissionStmt.run] at h
        (repeat' split at h) <;> cases h
        · exact .inl hsub
        · exact .inl (Table.mem_deleteWhere.mp hsub).1
      | _ => exact hpre.elim
    | forms q | organizations q => cases q <;> first | exact hpre.elim | cases hreach
    | _ => cases hreach

/-- **A claimed row stays as it is** while its submission stays, unless it is forgotten. -/
theorem claimed_stays (h : q.run P p c s.db = some (db', x)) (hpre : ClaimPre P reaps p s q)
    (hforget : q ≠ .uploads (.forget u.id)) (hu : u ∈ s.db.file_uploads.rows)
    (hclaimed : u.submission_id = some sub.id) (hsub : sub ∈ db'.submissions.rows) :
    u ∈ db'.file_uploads.rows := by
  rcases upload_fate h hpre hu with hu' | ⟨_, _, _, _, hstores, hid, -⟩ |
    ⟨organization_id, id, rfl, hid, -⟩ | ⟨heq, -⟩
  · exact hu'
  · -- A commit claims unclaimed rows.
    obtain ⟨-, u', hu', heq, hunclaimed⟩ := hstores.held u.id hid
    rw [Table.eq_of_key_eq _ hu' hu heq, hclaimed] at hunclaimed
    cases hunclaimed
  · -- The deleted submission is another one.
    rw [hclaimed, Option.some.injEq] at hid
    simp only [Stmt.run, SubmissionStmt.run] at h
    (repeat' split at h) <;> cases h
    · exact hu
    · exact absurd hid (beq_eq_false_iff_ne.mp (Table.mem_deleteWhere.mp hsub).2)
  · exact absurd heq hforget

/-- What a commit stores is recorded from then on. -/
theorem recorded_of_commit {event : Option OutboxEvent} {ids : List Uuid}
    (hstores : StoresSubmission P s.db p form sub ids)
    (hwrites : q = .commit (submission_writes sub event) ∧ ids = [] ∨
      q = .commit (submission_writes sub event ++ [.claim_uploads ids sub.id]))
    (h : q.run P p c s.db = some (db', x)) (hfile : file ∈ sub.files) : Recorded db' sub file := by
  obtain ⟨u, hu, hid, hform, hfield, hmeta⟩ := hstores.claimed file hfile
  rcases hwrites with ⟨-, rfl⟩ | rfl
  · exact absurd hid List.not_mem_nil
  · cases h
    refine ⟨{ u with submission_id := some sub.id }, ?_, rfl, hform, hfield, hmeta⟩
    change _ ∈ (Write.applyAll s.db _).file_uploads.rows
    rw [(applyAll_claim s.db sub event ids).2]
    exact List.mem_map.mpr ⟨u, hu, by simp [hid]⟩

theorem Recorded.run (hrec : Recorded s.db sub file) (h : q.run P p c s.db = some (db', x))
    (hpre : ClaimPre P reaps p s q)
    (hforget : ∀ u ∈ s.db.file_uploads.rows, q = .uploads (.forget u.id) → u.submission_id = none)
    (hsub : sub ∈ db'.submissions.rows) : Recorded db' sub file := by
  obtain ⟨u, hu, hclaimed, hrest⟩ := hrec
  refine ⟨u, claimed_stays h hpre (fun heq => ?_) hu hclaimed hsub, hclaimed, hrest⟩
  rw [hforget u hu heq] at hclaimed
  cases hclaimed

/-- Claimed files stay claimed, as long as no claimed row is forgotten. -/
theorem FilesClaimed.run (hfiles : FilesClaimed s.db) (h : q.run P p c s.db = some (db', x))
    (hpre : ClaimPre P reaps p s q)
    (hforget : ∀ u ∈ s.db.file_uploads.rows, q = .uploads (.forget u.id) →
      u.submission_id = none) : FilesClaimed db' := by
  intro sub hsub file hfile
  rcases submission_origin h hpre hsub with hold | ⟨form, event, ids, hstores, hwrites⟩
  · exact (hfiles sub hold file hfile).run h hpre hforget hsub
  · exact recorded_of_commit hstores hwrites h hfile

/-! #### Answers and files -/

theorem lookup_map_key (files : List (String × FileMetadata)) (k : String) :
    List.lookup k (files.map fun file => (file.1, file.2.key)) =
      (List.lookup k files).map (·.key) := by
  induction files with
  | nil => rfl
  | cons file files ih =>
    obtain ⟨key, metadata⟩ := file
    rw [List.map_cons, List.lookup_cons, List.lookup_cons]
    cases k == key with
    | true => rfl
    | false => exact ih

/-- A submission's answers to file fields and its files are the same. -/
theorem NamesUploads.answer (h : NamesUploads P db p form data files)
    (hnodup : (form.schema.fields.map (·.key)).Nodup) {field : FieldDefinition}
    (hfield : field ∈ form.schema.fields) (hfile : field.field_type = .file) :
    data.get field.key = (files.lookup field.key).map fun file => .string file.key := by
  obtain ⟨payload, hvalid⟩ := h.valid
  have hlookup : (files.lookup field.key).map (·.key) = (data.get field.key).bind Value.as_str := by
    rw [← lookup_map_key, h.answers, lookup_file_answers hnodup hfield hfile]
  cases hget : data.get field.key with
  | none =>
    rw [hget, Option.bind_none, Option.map_eq_none_iff] at hlookup
    rw [hlookup, Option.map_none]
  | some v =>
    obtain ⟨text, rfl⟩ := string_of_file_field hnodup hvalid hfield hfile hget
    rw [hget, Option.bind_some, Value.as_str, Option.map_eq_some_iff] at hlookup
    obtain ⟨file, hfound, rfl⟩ := hlookup
    rw [hfound, Option.map_some]

/-- Sound files stay sound. -/
theorem FilesSound.run (hfiles : FilesSound P s.db)
    (hschemas : ∀ form ∈ s.db.forms.rows, validate_schema P form.schema = .ok ())
    (h : q.run P p c s.db = some (db', x)) (hpre : ClaimPre P reaps p s q)
    (hforget : ∀ u ∈ s.db.file_uploads.rows, q = .uploads (.forget u.id) →
      u.submission_id = none) : FilesSound P db' := by
  intro sub hsub
  rw [forms_of_claimPre h hpre]
  rcases submission_origin h hpre hsub with hold | ⟨form, event, ids, hstores, hwrites⟩
  · obtain ⟨form, hform, hsound⟩ := hfiles sub hold
    refine ⟨form, hform, { hsound with recorded := fun file hfile => ?_ }⟩
    exact (hsound.recorded file hfile).run h hpre hforget hsub
  · have hnodup := nodup_of_validate_schema (hschemas form hstores.names.mem)
    refine ⟨form, hstores.names.mem, ⟨hstores.form_id.symm, hstores.names.valid, ?_, ?_, ?_⟩⟩
    · intro field hfield hfile
      rw [hstores.names.answer hnodup hfield hfile, Option.isSome_map]
    · intro field hfield hfile file hlookup
      rw [hstores.names.answer hnodup hfield hfile, hlookup, Option.map_some]
    · exact fun file hfile => recorded_of_commit hstores hwrites h hfile

/-! #### Claims find all their rows

The code counts the rows it has claimed and rolls back if there are too few. That branch is never
taken: between the check and the claim the rows are locked. -/

/-- The rows a claim finds are in bijection with the keys it asks for. -/
theorem claims_all {object_keys : List String} {ids : List Uuid} (hkeys : KeysUnique db)
    (hnames : NamesUploads P db p form data files)
    (hnodup : (form.schema.fields.map (·.key)).Nodup)
    (hasked : object_keys = files.map fun file => file.2.key)
    (h : (UploadStmt.claim object_keys).run p c db = some (db', .ok ids)) :
    ids.length = object_keys.length := by
  have hfst : (files.map (·.1)).Nodup := by
    have hanswers := nodup_file_answers hnodup data
    rw [← hnames.answers, List.map_map] at hanswers
    exact hanswers
  -- Two files of one key would be one row, hence one field.
  have hasked_nodup : object_keys.Nodup := by
    rw [hasked]
    refine List.Nodup.map_on (fun file hfile file' hfile' heq => ?_) (List.Nodup.of_map _ hfst)
    obtain ⟨u, hu, -, -, -, hfield, hmeta⟩ := hnames.held file hfile
    obtain ⟨u', hu', -, -, -, hfield', hmeta'⟩ := hnames.held file' hfile'
    have hkey : u.metadata.key = u'.metadata.key := by rw [hmeta, hmeta', heq]
    obtain rfl := hkeys u hu u' hu' hkey
    exact Prod.ext (hfield.symm.trans hfield') (hmeta.symm.trans hmeta')
  obtain ⟨rfl, -⟩ := UploadStmt.claim_ok h
  have hrows : (db.file_uploads.rows.filter fun u =>
      u.object_key ∈ object_keys && u.submission_id.isNone).Nodup :=
    (List.Nodup.of_map _ db.file_uploads.nodup).filter _
  have hfound_nodup : ((db.file_uploads.rows.filter fun u =>
      u.object_key ∈ object_keys && u.submission_id.isNone).map (·.object_key)).Nodup := by
    refine List.Nodup.map_on (fun u hu u' hu' heq => ?_) hrows
    exact hkeys u (List.mem_filter.mp hu).1 u' (List.mem_filter.mp hu').1 heq
  have hperm : ((db.file_uploads.rows.filter fun u =>
      u.object_key ∈ object_keys && u.submission_id.isNone).map (·.object_key)).Perm
        object_keys := by
    refine (List.perm_ext_iff_of_nodup hfound_nodup hasked_nodup).mpr fun key => ?_
    constructor
    · intro hmem
      obtain ⟨u, hu, rfl⟩ := List.mem_map.mp hmem
      have hsel := (Bool.and_eq_true_iff.mp (List.mem_filter.mp hu).2).1
      exact of_decide_eq_true hsel
    · intro hmem
      have hin := hmem
      rw [hasked] at hin
      obtain ⟨file, hfile, rfl⟩ := List.mem_map.mp hin
      obtain ⟨u, hu, -, hunclaimed, -, -, hmeta⟩ := hnames.held file hfile
      have hkey : u.object_key = file.2.key := by rw [← hmeta]; rfl
      refine List.mem_map.mpr ⟨u, List.mem_filter.mpr ⟨hu, ?_⟩, hkey⟩
      simp [hkey, hmem, hunclaimed]
  have hlength := hperm.length_eq
  rw [List.length_map] at hlength
  rw [List.length_map]
  exact hlength

theorem claimsAll_of_error {e : Failure} : ClaimsAll ⟨p, r, db, q, .error e⟩ := by
  unfold ClaimsAll
  split
  · next heq => cases heq
  · trivial

/-! ### Runs -/

/-- The requests that make uploads, claim them and let them go, without the reaper. -/
def Request.usesUploads : Request → Prop
  | upload _ _ _ _ _ | submit _ _ _ _ | delete_submission _ _ _ => True
  | _ => False

theorem Request.usesUploads.claims (hr : r.usesUploads) : r.claimsUploads := by
  cases r <;> trivial

/-- A database between two requests: its schemas were checked, its object keys are unique and its
files are sound. -/
structure UploadsSound (P : Platform) (db : Database) : Prop where
  schemas : ∀ form ∈ db.forms.rows, validate_schema P form.schema = .ok ()
  keys : KeysUnique db
  files : FilesSound P db
  locks : db.locks = []

/-- What every statement keeps, as long as no row is forgotten. Unique keys come first: they make
the row of a file the only one of its key, so that two submissions which share a key share a row,
and then they are one. -/
structure FilesInv (P : Platform) (s : State) : Prop where
  schemas : ∀ form ∈ s.db.forms.rows, validate_schema P form.schema = .ok ()
  keys : KeysUnique s.db
  files : FilesSound P s.db
  claims : ∀ e ∈ s.log, ClaimsAll e
/-- Every statement keeps it, as long as no row is forgotten. A submission that is stored now is
sound by the precondition of its commit; those that were stored before keep their files and their
rows, as a claimed row only ever changes with its submission. -/
theorem FilesInv.effect (hs : FilesInv P s) (hpre : ClaimPre P False p s q)
    (h : G.Effect (store P) p r q s x s') : FilesInv P s' := by
  have hlog : ClaimsAll ⟨p, r, s.db, q, x⟩ → ∀ e ∈ s'.log, ClaimsAll e := by
    intro hclaim e he
    rw [h.log_eq] at he
    rcases List.mem_cons.mp he with rfl | he
    · exact hclaim
    · exact hs.claims e he
  cases h with
  | fail _ => exact ⟨hs.schemas, hs.keys, hs.files.of_eq rfl rfl rfl, hlog claimsAll_of_error⟩
  | @run c db' x _ hrun =>
    refine ⟨?_, keysUnique_of_run hs.keys hrun, ?_, hlog ?_⟩
    · rw [Shared.push_db, forms_of_claimPre hrun hpre]
      exact hs.schemas
    · refine hs.files.run hs.schemas hrun hpre fun u _ heq => ?_
      subst heq
      exact hpre.elim
    · unfold ClaimsAll
      split
      · next heq =>
        cases heq
        obtain ⟨form, data, files, hnames, hasked⟩ := hpre
        have hnodup := nodup_of_validate_schema (hs.schemas form hnames.mem)
        have hclaim : (UploadStmt.claim _).run p c s.db = some (db', .ok _) := hrun
        exact claims_all hs.keys hnames hnodup hasked hclaim
      · trivial

/-- **Files are sound.** In every run of uploads, submissions and submission deletions, every
submission's files are its file answers, described and claimed as the ledger has them; no two
submissions share an object; and a claim always finds all the rows it asks for. -/
theorem filesSound_of_reaches {w : World} (hdb : UploadsSound d.platform db)
    (h : Reaches d (Regime.free Request.usesUploads) (World.start db) w) :
    FilesSound d.platform w.shared.db ∧ FilesApart w.shared.db ∧ KeysUnique w.shared.db ∧
      ∀ e ∈ w.shared.log, ClaimsAll e := by
  have hspec : ∀ p r s, (Regime.free Request.usesUploads).spawns r →
      (claimLogic d.platform (Regime.free Request.usesUploads)).inv s →
      (∀ e ∈ s.log, e.pid ≠ p) → (claimLogic d.platform (Regime.free Request.usesUploads)).wp p r
        (Request.code d r) NoPost s :=
    fun p r s hr hs _ => wp_claimsUploads hr hr.claims hs
  have hstart : (claimLogic d.platform (Regime.free Request.usesUploads)).Safe (fun _ _ => NoPost)
      (World.start db) := by
    refine .start ?_
    change db.locks.Exclusive
    rw [hdb.locks]
    exact Locks.exclusive_nil
  have hinv : FilesInv d.platform w.shared := by
    refine Logic.inv_of_reaches (I := FilesInv d.platform) hspec hstart ?_ ?_ ?_ ?_ h
    · exact ⟨hdb.schemas, hdb.keys, hdb.files, fun _ he => absurd he List.not_mem_nil⟩
    · exact fun _ hpre hI he => hI.effect hpre he
    · exact fun _ hI => ⟨hI.schemas, hI.keys, hI.files.of_eq rfl rfl rfl, hI.claims⟩
    · exact fun hI => ⟨hI.schemas, hI.keys, hI.files.of_eq rfl rfl rfl, hI.claims⟩
  exact ⟨hinv.files, hinv.files.claimed.apart hinv.keys, hinv.keys, hinv.claims⟩

end Claims

/-! ### A file is submitted -/

instance (db : Database) : Decidable (KeysUnique db) :=
  inferInstanceAs (Decidable (∀ u ∈ db.file_uploads.rows, ∀ u' ∈ db.file_uploads.rows,
    u.object_key = u'.object_key → u = u'))

instance : DecidablePred Request.usesUploads := fun r => by
  induction r using Request.casesOn <;> (delta Request.usesUploads; infer_instance)

/-- The uploaded file is submitted. -/
def submitFile : List Step :=
  [.spawn 1 (.submit "contact" [("cv", .string "k1")] ⟨none, none⟩ none),
    .step 1 {}, .step 1 {}, .step 1 {}, .step 1 {}, .step 1 { id := 40 }, .step 1 {}, .step 1 {},
    .step 1 {}]

theorem uploadsSound_formWithFile : UploadsSound .sample formWithFile where
  schemas := by decide +kernel
  keys := by decide
  files := nofun
  locks := rfl

/-- An upload that is submitted is claimed by that submission. -/
theorem filesSound_submitted :
    let w := Deployment.sample.play (Regime.free Request.usesUploads) (uploadFile ++ submitFile)
      formWithFile
    (w.shared.db.submissions.rows.map fun sub => (sub.id, sub.files.map (·.2.key))) =
        [(40, ["k1"])] ∧
      (w.shared.db.file_uploads.rows.map (·.submission_id)) = [some 40] ∧
      FilesSound .sample w.shared.db ∧ FilesApart w.shared.db ∧ KeysUnique w.shared.db ∧
      ∀ e ∈ w.shared.log, ClaimsAll e :=
  ⟨by decide +kernel, by decide +kernel, filesSound_of_reaches uploadsSound_formWithFile
    (Deployment.sample.reaches_play (Regime.free Request.usesUploads) _ formWithFile)⟩

end SubmitSnap
