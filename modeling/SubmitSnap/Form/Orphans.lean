import SubmitSnap.Form.UploadLedger

/-!
# Objects and the rows that name them

The reaper finds an abandoned object through its ledger row, so an object without a row stays in the
bucket for ever. Uploads and the reaper mind the order of the two: the row of an object is written
as soon as the object is there, and goes only after it. Deleting a form or an organization does not:
the rows go with the cascade, the objects stay.

## The argument

An object without a row is no defect while its upload is still at work, so the invariant allows
for it: every object is named by a row or *pending*, which means that some process has put it and
has neither written its row nor asked for its deletion. That a request which has ended leaves
nothing pending is a fact about the scripts (`wp_handlesUploads`). Once no request is in flight,
every object is named.

Which statements take a row away is settled in `Stmt.upload_kept`: forgetting it, which the reaper
does when the object is gone, and the two deletions that the regime excludes while an object is
named.

## Main results

* `objectsNamed_of_reaches` — once no request is in flight every object has its row, in every run in
  which no form or organization is deleted while one of its rows names an object.
* `not_objectsNamed` — an upload, and the deletion of the form it was made to.
-/

namespace SubmitSnap

open Interleave

/-- Every object in the bucket is named by a ledger row, through which a submission or the reaper
gets hold of it. -/
def ObjectsNamed (db : Database) : Prop :=
  ∀ key ∈ db.objects, ∃ u ∈ db.file_uploads.rows, u.object_key = key

/-- The ledger row belongs to the organization, by itself or through its form. -/
def FileUploadRecord.belongsTo (u : FileUploadRecord) (db : Database) (organization_id : Uuid) :
    Prop :=
  u.organization_id = organization_id ∨
    ∃ f ∈ db.forms.rows, f.id = u.form_id ∧ f.organization_id = organization_id

/-- A form or an organization is deleted while one of its ledger rows names an object. -/
def orphans (db : Database) : Stmt → Prop
  | .forms (.delete organization_id id) => (db.formOf organization_id id).isSome = true ∧
    ∃ u ∈ db.file_uploads.rows, u.form_id = id ∧ u.object_key ∈ db.objects
  | .organizations (.delete id) =>
    ∃ u ∈ db.file_uploads.rows, u.belongsTo db id ∧ u.object_key ∈ db.objects
  | _ => False

/-- The runs in which nothing fails and no deletion takes the last trace of an object with it. -/
abbrev rowsOutlive : Regime :=
  (Regime.faultless Request.handlesUploads).avoiding fun _ _ q s => orphans s.db q

/-! ### What single statements do to a row

A row of the ledger may be claimed or given back; that does not matter here, it names its object
all the same. It is lost by being forgotten or by a cascade. -/

section Statements

variable {P : Platform} {p : ℕ} {c : Choice} {db db' : Database} {u : FileUploadRecord}

/-- The row is still there, claimed or not. -/
def UploadKept (u : FileUploadRecord) (db' : Database) : Prop :=
  ∃ submission_id, { u with submission_id } ∈ db'.file_uploads.rows

theorem UploadKept.of_mem (h : u ∈ db'.file_uploads.rows) : UploadKept u db' :=
  ⟨u.submission_id, h⟩

/-- What forgets or sets the submission of some rows keeps every row. -/
theorem UploadKept.of_updateWhere {sel : FileUploadRecord → Bool} {submission_id : Option Uuid}
    (h : u ∈ db.file_uploads.rows) (hdb' : db'.file_uploads.rows = db.file_uploads.rows.map
      fun u => if sel u then { u with submission_id } else u) : UploadKept u db' := by
  have hmem := List.mem_map_of_mem (f := fun u => if sel u then { u with submission_id } else u) h
  rw [← hdb'] at hmem
  by_cases hsel : sel u = true
  · exact ⟨submission_id, by simpa [hsel] using hmem⟩
  · exact ⟨u.submission_id, by simpa [hsel] using hmem⟩

theorem Database.cascadeSubmission_kept (gone : Uuid → Bool) (h : u ∈ db.file_uploads.rows) :
    UploadKept u (db.cascadeSubmission gone) :=
  .of_updateWhere h rfl

/-- The deletion of forms keeps the rows of others. -/
theorem Database.cascadeForm_kept {gone : Uuid → Bool} (h : u ∈ db.file_uploads.rows)
    (hform : gone u.form_id = false) : UploadKept u (db.cascadeForm gone) := by
  obtain ⟨submission_id, hu⟩ :=
    db.cascadeSubmission_kept (db.submissionsWhere fun s => gone s.form_id) h
  exact ⟨submission_id, Table.mem_deleteWhere.mpr ⟨hu, hform⟩⟩

/-- The deletion of an organization keeps the rows of others. -/
theorem Database.cascadeOrganization_kept {id : Uuid} (h : u ∈ db.file_uploads.rows)
    (hother : ¬ u.belongsTo db id) : UploadKept u (db.cascadeOrganization id) := by
  have hform : (db.formsWhere (fun f => f.organization_id == id)) u.form_id = false := by
    rw [formsWhere, ← Bool.not_eq_true, List.any_eq_true]
    rintro ⟨f, hf, hsel⟩
    rw [Bool.and_eq_true, beq_iff_eq, beq_iff_eq] at hsel
    exact hother (.inr ⟨f, hf, hsel⟩)
  have horganization : (u.organization_id == id) = false :=
    beq_eq_false_iff_ne.mpr fun heq => hother (.inl heq)
  unfold cascadeOrganization
  extract_lets db₁ db₂ db₃
  obtain ⟨sub₁, hu₁⟩ : UploadKept u db₁ := db.cascadeForm_kept h hform
  obtain ⟨sub₂, hu₂⟩ := db₁.cascadeSubmission_kept
    (db₁.submissionsWhere fun s => s.organization_id == id) hu₁
  exact ⟨sub₂, Table.mem_deleteWhere.mpr ⟨hu₂, horganization⟩⟩

theorem Write.uploads_kept (ws : List Write) (h : u ∈ db.file_uploads.rows) :
    UploadKept u (Write.applyAll db ws) := by
  induction ws generalizing db u with
  | nil => exact .of_mem h
  | cons w ws ih =>
    cases w with
    | claim_uploads ids submission_id =>
      obtain ⟨sub, hu⟩ : UploadKept u ((Write.claim_uploads ids submission_id).apply db) :=
        .of_updateWhere h rfl
      obtain ⟨sub', hu'⟩ := ih hu
      exact ⟨sub', hu'⟩
    | _ => exact ih h

/-- A statement of the requests around uploads keeps a row, unless it forgets it or deletes what the
row belongs to. -/
theorem Stmt.upload_kept {q : Stmt} {x : Except Failure q.Reply} {s : State}
    (h : q.run P p c s.db = some (db', x)) (hpre : LedgerPre p s q)
    (hu : u ∈ s.db.file_uploads.rows) (hforget : q ≠ .uploads (.forget u.id))
    (hform : ∀ organization_id, q = .forms (.delete organization_id u.form_id) →
      (s.db.formOf organization_id u.form_id).isSome = false)
    (horganization : ∀ id, q = .organizations (.delete id) → ¬ u.belongsTo s.db id) :
    UploadKept u db' := by
  cases hreach : Part.file_uploads.reachedBy q with
  | false =>
    have hsame : db'.file_uploads = s.db.file_uploads := Stmt.footprint .file_uploads hreach h
    exact .of_mem (hsame ▸ hu)
  | true =>
    cases q with
    | organizations q =>
      cases q with
      | delete id =>
        simp only [Stmt.run, OrganizationStmt.run] at h
        split at h <;> cases h
        exact s.db.cascadeOrganization_kept hu (horganization id rfl)
      | _ => cases hreach
    | forms q =>
      cases q with
      | delete organization_id id =>
        simp only [Stmt.run, FormStmt.run] at h
        split at h
        · cases h
          exact .of_mem hu
        · next hfound =>
          split at h <;> cases h
          refine s.db.cascadeForm_kept hu (beq_eq_false_iff_ne.mpr fun heq => ?_)
          subst heq
          have hnone := hform organization_id rfl
          rw [hfound] at hnone
          cases hnone
      | _ => cases hreach
    | submissions q =>
      cases q with
      | delete organization_id id =>
        simp only [Stmt.run, SubmissionStmt.run] at h
        (repeat' split at h) <;> cases h
        · exact .of_mem hu
        · exact s.db.cascadeSubmission_kept _ hu
      | _ => cases hreach
    | uploads q =>
      cases q with
      | insert upload =>
        rcases UploadStmt.run_insert h with ⟨-, rfl⟩ | ⟨row, -, -, -, -, -, rfl⟩
        · exact .of_mem hu
        · exact .of_mem (Table.mem_insertNew_of_mem hu)
      | lock_for_claim form_id object_keys =>
        simp only [Stmt.run, UploadStmt.run] at h
        split at h <;> cases h
        obtain ⟨ls, hls⟩ := Database.lockAll_eq p .update _ s.db
        rw [hls]
        exact .of_mem hu
      | claim object_keys =>
        simp only [Stmt.run, UploadStmt.run] at h
        split at h <;> cases h
        obtain ⟨ls, hls⟩ := Database.lockAll_eq p .noKeyUpdate _ s.db
        rw [hls]
        exact .of_mem hu
      | abandoned older_than limit =>
        cases h
        exact .of_mem hu
      | forget id =>
        simp only [Stmt.run, UploadStmt.run] at h
        split at h <;> cases h
        refine .of_mem (Table.mem_deleteWhere.mpr ⟨hu, beq_eq_false_iff_ne.mpr fun heq => ?_⟩)
        exact hforget (by rw [heq])
    | commit ws =>
      cases h
      exact Write.uploads_kept ws hu
    | _ => cases hreach

end Statements

/-! ### Every run -/

/-- An object has its row, or the upload that has put it has yet to deal with it. -/
def ObjectsNamedOrPending (s : State) : Prop :=
  ∀ key ∈ s.db.objects, (∃ u ∈ s.db.file_uploads.rows, u.object_key = key) ∨
    ∃ p, Pending p key s.log

variable {P : Platform} {p : ℕ} {r : Request} {q : Stmt} {x : Except Failure q.Reply} {s s' : State}
  {db₀ : Database}

/-- An object that is pending stays so, or has its row, or is gone. -/
theorem pending_settled {p' : ℕ} {key : String} (hs : LedgerInv db₀ s)
    (h : rowsOutlive.Effect (store P) p r q s x s') (hkey : key ∈ s'.db.objects)
    (hpending : Pending p' key s.log) :
    (∃ u ∈ s'.db.file_uploads.rows, u.object_key = key) ∨ Pending p' key s'.log := by
  cases h with
  | fail hfails => exact hfails.elim
  | run hadmits hrun =>
    by_cases hsettles : settlesObject p' key ⟨p, r, s.db, q, x⟩
    · left
      unfold settlesObject at hsettles
      split at hsettles
      · next heq =>
        cases heq
        obtain ⟨-, rfl⟩ := hsettles
        rcases UploadStmt.run_insert hrun with ⟨⟨e, he⟩, -⟩ | ⟨row, -, hrow, hid, hnew, -, rfl⟩
        · cases he
        · have hfree : s.db.file_uploads.hasKey row.id = false := by
            rw [Table.hasKey_eq_false]
            intro u hu heq
            have hissued : u.id ∈ s.db.issued := (hs.row u hu).2
            rw [heq, hid] at hissued
            exact hnew hissued
          exact ⟨row, Table.mem_insertNew.mpr (.inr ⟨rfl, hfree⟩), hrow⟩
      · next heq =>
        cases heq
        obtain ⟨-, rfl⟩ := hsettles
        cases hrun
        simp [Database.objects] at hkey
      · exact hsettles.elim
    · exact .inr (.inr ⟨hsettles, hpending⟩)

/-- Every statement of the regime keeps the objects named or pending. A new object is pending, by
the process that has just put it. One that was pending is so until its process settles it, and
then it has a row or is gone. One that was named keeps its row, unless the row is forgotten, which
takes place when the object is gone. -/
theorem ObjectsNamedOrPending.effect (hobjects : ObjectsNamedOrPending s) (hs : LedgerInv db₀ s)
    (hpre : LedgerPre p s q) (h : rowsOutlive.Effect (store P) p r q s x s') :
    ObjectsNamedOrPending s' := by
  intro key hkey
  rcases mem_objects_of_effect h hkey with hold | rfl
  · rcases hobjects key hold with ⟨u, hu, rfl⟩ | ⟨p', hpending⟩
    · left
      cases h with
      | fail hfails => exact hfails.elim
      | run hadmits hrun =>
        have hnot : ¬ orphans s.db q := hadmits.2
        -- The row stays: its object is still there.
        have hthere : u.object_key ∈ s.db.objects := hold
        have hkept := Stmt.upload_kept hrun hpre hu ?_ ?_ ?_
        · obtain ⟨submission_id, hu'⟩ := hkept
          exact ⟨_, hu', rfl⟩
        · rintro rfl
          obtain ⟨u₀, hlisted, hid, hgone⟩ := hpre
          have hsame : u.object_key = u₀.object_key := (hs.listed u₀ hlisted).2.2 u hu hid.symm
          rw [hsame] at hthere
          exact hgone hthere
        · rintro organization_id rfl
          rw [← Bool.not_eq_true]
          exact fun hfound => hnot ⟨hfound, u, hu, rfl, hthere⟩
        · rintro id rfl hbelongs
          exact hnot ⟨u, hu, hbelongs, hthere⟩
    · exact (pending_settled hs h hkey hpending).imp_right fun hp => ⟨p', hp⟩
  · cases h with
    | fail hfails => exact hfails.elim
    | run _ hrun =>
      cases hrun
      exact .inr ⟨p, .inl ⟨rfl, rfl⟩⟩

variable {d : Deployment} {db : Database} {w : World}

/-- **No object is orphaned**: when no request is in flight every object in the bucket has its row,
in every run in which no deletion takes the rows of objects that are still there. -/
theorem objectsNamed_of_reaches (hdb : LedgerIssued db) (hobjects : ObjectsNamed db)
    (h : Reaches d rowsOutlive (World.start db) w) (hended : w.Ended) :
    ObjectsNamed w.shared.db := by
  have hspec : ∀ p r s, rowsOutlive.spawns r → LedgerInv db s → (∀ e ∈ s.log, e.pid ≠ p) →
      (ledgerLogic d.platform db rowsOutlive).wp p r (Request.code d r)
        (fun _ => NonePending p) s :=
    fun p r s hr hs hfresh => wp_handlesUploads hr hs hfresh
  have hstart : (ledgerLogic d.platform db rowsOutlive).Safe (fun p _ _ => NonePending p)
      (World.start db) := .start (LedgerInv.start hdb)
  have hsafe : (ledgerLogic d.platform db rowsOutlive).Safe (fun p _ _ => NonePending p) w :=
    Logic.safe_of_reaches hspec hstart h
  have hnamed : ObjectsNamedOrPending w.shared :=
    Logic.inv_of_reaches (I := ObjectsNamedOrPending) hspec hstart
      (fun key hkey => .inl (hobjects key hkey)) (fun hs hpre hI he => hI.effect hs hpre he)
      (fun _ hI => hI) (fun hI => hI) h
  intro key hkey
  refine (hnamed key hkey).resolve_right ?_
  rintro ⟨p, hpending⟩
  -- Whoever has put it has come to an end, and left nothing pending.
  have hend := hended p
  unfold World.endedAt at hend
  split at hend
  · next hp =>
    obtain ⟨e, he, hput⟩ := hpending.exists_mem
    exact hsafe.fresh p hp e he (pid_of_putsObject hput)
  · next hp => exact hsafe.code p _ _ hp w.shared (.refl hsafe.inv) key hpending
  · next hp => exact hsafe.code p _ _ hp w.shared (.refl hsafe.inv) key hpending
  all_goals cases hend

/-! ### A form is deleted

The cascade takes the row and leaves the object: nothing in the database says any more that it is
there. -/

instance (u : FileUploadRecord) (db : Database) (organization_id : Uuid) :
    Decidable (u.belongsTo db organization_id) :=
  inferInstanceAs (Decidable (_ ∨ _))

instance (db : Database) : DecidablePred (orphans db) := fun q => by
  delta orphans
  split <;> infer_instance

instance (db : Database) : Decidable (ObjectsNamed db) :=
  inferInstanceAs (Decidable (∀ key ∈ db.objects, ∃ u ∈ db.file_uploads.rows, u.object_key = key))

/-- A file is uploaded to it. -/
def uploadFile : List Step :=
  [.spawn 0 (.upload "contact" "cv" (some "cv.txt") (some "text/plain") [.ok [104, 105]]),
    .step 0 {}, .step 0 {}, .step 0 { text := "k1" }, .step 0 {}, .step 0 {}, .step 0 {},
    .step 0 {}, .step 0 { id := 30 }]

/-- The form is deleted. -/
def deleteForm : List Step :=
  [.spawn 1 (.delete_form 1 2 8), .step 1 {}, .step 1 {}, .step 1 {}]

/-- **The object survives its form**, and nothing names it any more. -/
theorem not_objectsNamed : ¬ ∀ w, Reaches .sample (Regime.faultless Request.handlesUploads)
    (World.start formWithFile) w → w.Ended → ObjectsNamed w.shared.db := by
  intro hall
  have hended : (Deployment.sample.play (Regime.faultless Request.handlesUploads)
      (uploadFile ++ deleteForm) formWithFile).Ended :=
    Deployment.sample.ended_play _ (by decide +kernel)
  have hnamed := hall _ (Deployment.sample.reaches_play _ (uploadFile ++ deleteForm) formWithFile)
    hended
  revert hnamed
  decide +kernel

/-- A reaper pass a day later. -/
def reapLater : List Step :=
  [.pass (seconds 90000), .spawn 2 .reap_abandoned_uploads, .step 2 {}, .step 2 {}, .step 2 {},
    .step 2 {}]

/-- The upload is named by its row; once the reaper has been there the form may go. -/
theorem objectsNamed_reapedFirst :
    let w := Deployment.sample.play rowsOutlive (uploadFile ++ reapLater ++ deleteForm) formWithFile
    (w.shared.db.issued_keys.contains "k1" = true ∧ w.shared.db.forms.rows = []) ∧
      ObjectsNamed w.shared.db :=
  ⟨by decide +kernel, objectsNamed_of_reaches ⟨by decide, by decide⟩ (by decide)
    (Deployment.sample.reaches_play rowsOutlive _ formWithFile)
    (Deployment.sample.ended_play _ (by decide +kernel))⟩

end SubmitSnap
