import SubmitSnap.Form.Contents
import SubmitSnap.Form.Provenance
import SubmitSnap.Interleave.Observer

/-!
# Downloads

A member asks for the attachment of a submission by the field it answers. The object key is read out
of the submission and never taken from the request, and nothing is locked: the submission is read at
one moment, the object is opened at a later one, and the row of the ledger is not looked at at all.

Still it is the right file. What the submission says of it was copied from a row of the ledger that
was made for that field of that form, that row says what was uploaded, and under its key there is
never anything else.

Nothing can be said of the bytes of an upload that is older than the run: how they came into the
bucket is not in the log. That is the first case of the result, and it is about the upload of this
very attachment, with its object key, and not about any old upload to the field.

## The argument

A download makes two looks at the instance, and the proof needs one fact about each that cannot go
out of date in between. The submission was there when it was looked for, and its attachment is
that of a ledger row which was seen (`submitted_by_one`). What such a row describes is in the
bucket as it was sent, or not at all, now and at any later time (`Described.of_reaches`). So the
object that is opened later has the bytes that belong to the attachment that was read earlier.

## Main definitions

* `FormService.submission_attachment`, `Database.open_object` — the two halves of a download.
* `Downloads` — a download next to a run.

## Main results

* `downloaded_as_sent` — what a member downloads is what was uploaded for that field of that form.
-/

namespace SubmitSnap

open Interleave
open Interleave.Script (ret when mapError result)

/-- What a member is handed. -/
structure Download where
  object : List ℕ
  filename : String
  content_type : String

namespace FormService

variable (d : Deployment)

def load_submission (organization_id submission_id : Uuid) : Code FormError SubmissionRecord := do
  match ← ask (.submissions (.find organization_id submission_id)) with
  | none => throw .not_found
  | some submission => return submission

/-- `submission_file`, up to the point where the object is opened. -/
def submission_attachment (organization_id submission_id : Uuid) (field_key : String)
    (actor_id : Uuid) : Code FormError FileMetadata := do
  if !d.config.storage_enabled then throw .file_uploads_unavailable
  else do
    let _ ← access organization_id actor_id
    let submission ← load_submission organization_id submission_id
    match submission.files.lookup field_key with
    | none => throw .file_missing
    | some attachment => return attachment

end FormService

/-- `FileStorage::open`. -/
def Database.open_object (db : Database) (key : String) : Except FormError (List ℕ) :=
  match db.bucket.find? (·.1 == key) with
  | none => .error .file_missing
  | some object => .ok object.2

/-- Next to a run from `w` to `w'`, a member is handed the attachment. -/
structure Downloads (d : Deployment) (organization_id submission_id : Uuid) (field_key : String)
    (actor_id : Uuid) (w : World) (download : Download) (w' : World) : Prop where
  exists_attachment : ∃ p attachment w₁,
    Observes anything (store d.platform) (Request.code d) p
      (FormService.submission_attachment d organization_id submission_id field_key actor_id)
      w (.ok attachment) w₁ ∧
    Reaches d anything w₁ w' ∧ w'.shared.db.open_object attachment.key = .ok download.object ∧
    download.filename = attachment.filename ∧ download.content_type = attachment.content_type

/-- The download is what a client has uploaded for that field of the form: these bytes, under the
name the client gave them and the type it declared, which the field accepts. -/
structure UploadedAs (d : Deployment) (form_id : Uuid) (field_key : String) (download : Download)
    (log : List Event) : Prop where
  exists_upload : ∃ p public_id filename declared_type before form field,
    ∃ chunks : List (List ℕ),
    ⟨p, .upload public_id field_key filename declared_type (chunks.map .ok), before,
      .forms (.find_by_public_id public_id), .ok (some form)⟩ ∈ log ∧
    form.id = form_id ∧ form.status = .published ∧
    FormService.upload_target form field_key declared_type = .ok (field, download.content_type) ∧
    download.filename = clean_filename filename ∧ download.object = chunks.flatten

section Run

variable {d : Deployment} {db : Database} {w w' : World}
  {organization_id submission_id actor_id : Uuid}
  {field_key : String} {download : Download} {bytes : List ℕ} {key : String} {p : ℕ}
  {attachment : FileMetadata}

theorem mem_bucket_of_open (h : db.open_object key = .ok bytes) : (key, bytes) ∈ db.bucket := by
  unfold Database.open_object at h
  split at h
  · cases h
  · next object hfind =>
    cases h
    have hsel := List.find?_some hfind
    have hkey : object.1 = key := beq_iff_eq.mp hsel
    exact hkey ▸ List.mem_of_find?_eq_some hfind

/-- The attachment is that of a submission that was there when it was looked for. -/
theorem of_observes_attachment
    (h : Observes anything (store d.platform) (Request.code d) p
      (FormService.submission_attachment d organization_id submission_id field_key actor_id)
      w (.ok attachment) w') :
    ∃ w₁ sub, Reaches d anything w w₁ ∧ Reaches d anything w₁ w' ∧
      sub ∈ w₁.shared.db.submissions.rows ∧ sub.organization_id = organization_id ∧
      sub.id = submission_id ∧ (field_key, attachment) ∈ sub.files := by
  unfold FormService.submission_attachment at h
  split at h
  · cases h
  obtain ⟨_, w₁, haccess, h⟩ := observes_bind h
  obtain ⟨sub, w₂, hload, h⟩ := observes_bind h
  obtain ⟨found, c, w₃, hto, hrun, hload⟩ := observes_query_bind hload
  have hfound : found = w₃.shared.db.submissionOf organization_id submission_id :=
    (Except.ok.inj (congrArg Prod.snd (Option.some.inj hrun))).symm
  cases found with
  | none => cases hload
  | some sub' =>
    obtain rfl : sub = sub' := observes_ret hload
    have hsel := List.find?_some hfound.symm
    rw [Bool.and_eq_true, beq_iff_eq, beq_iff_eq] at hsel
    refine ⟨w₃, sub, haccess.reaches.trans hto, hload.reaches.trans h.reaches,
      List.mem_of_find?_eq_some hfound.symm, hsel.1, hsel.2, ?_⟩
    split at h
    · cases h
    · next attachment' hlookup =>
      obtain rfl : attachment = attachment' := observes_ret h
      obtain ⟨before, after, heq, -⟩ := List.lookup_eq_some_iff.mp hlookup
      rw [heq]
      exact List.mem_append_right _ List.mem_cons_self

/-- Every member is handed the attachment. -/
theorem observes_attachment {organization : OrganizationRecord} {member : OrganizationMember}
    {sub : SubmissionRecord} (hstorage : d.config.storage_enabled = true)
    (horganization : w.shared.db.organizations.find? organization_id = some organization)
    (hmember : w.shared.db.organization_members.find? (organization_id, actor_id) = some member)
    (hsub : w.shared.db.submissionOf organization_id submission_id = some sub)
    (hfile : sub.files.lookup field_key = some attachment) :
    Observes anything (store d.platform) (Request.code d) p
      (FormService.submission_attachment d organization_id submission_id field_key actor_id)
      w (.ok attachment) w := by
  have haccess : (store d.platform).run p (.organizations (.access organization_id actor_id)) {}
      w.shared.db = some (w.shared.db, .ok (some
        { id := organization.id, name := organization.name, created_at := organization.created_at
          member_count := w.shared.db.organization_members.rows.countP
            fun m => m.organization_id == organization.id
          role := some member.role })) := by
    simp [store, Stmt.run, OrganizationStmt.run, horganization, hmember]
  have hfind : (store d.platform).run p (.submissions (.find organization_id submission_id)) {}
      w.shared.db = some (w.shared.db, .ok (some sub)) := by
    simp [store, Stmt.run, SubmissionStmt.run, hsub]
  unfold FormService.submission_attachment
  rw [if_neg (by simp [hstorage])]
  refine .answer .refl haccess (.answer .refl hfind ?_)
  change Observes _ _ _ _ (match sub.files.lookup field_key with
    | none => throw FormError.file_missing
    | some attachment => pure attachment) _ _ _
  rw [hfile]
  exact .ret .refl

/-- **What a member downloads is what was uploaded** for that field of the form that was submitted:
the bytes, and the name and type they go out under. -/
theorem downloaded_as_sent (hdb : KeysIssued db)
    (hold : ∀ sub ∈ db.submissions.rows, sub.id ≠ submission_id)
    (h : Reaches d anything (World.start db) w)
    (hdownload : Downloads d organization_id submission_id field_key actor_id w download w') :
    ∃ w₁ sub attachment, Reaches d anything w w₁ ∧ Reaches d anything w₁ w' ∧
      sub ∈ w₁.shared.db.submissions.rows ∧ sub.organization_id = organization_id ∧
      sub.id = submission_id ∧ (field_key, attachment) ∈ sub.files ∧
      w'.shared.db.open_object attachment.key = .ok download.object ∧
      ((∃ u ∈ db.file_uploads.rows, u.form_id = sub.form_id ∧ u.field_key = field_key ∧
          u.metadata = attachment) ∨
        UploadedAs d sub.form_id field_key download w'.shared.log) := by
  obtain ⟨p, attachment, w₂, hobserves, hlater, hopen, hfilename, htype⟩ :=
    hdownload.exists_attachment
  obtain ⟨w₁, sub, hto, hfrom, hsub, horganization, hid, hfile⟩ := of_observes_attachment hobserves
  refine ⟨w₁, sub, attachment, hto, hfrom.trans hlater, hsub, horganization, hid, hfile, hopen, ?_⟩
  -- The submission has its attachments from the ledger.
  obtain ⟨p', r, hsubmitted⟩ := submittedBy_of_reaches (h.trans hto) hsub fun sub₀ hsub₀ hsame =>
    hold sub₀ hsub₀ (hsame.id.trans hid)
  obtain ⟨before, n, now, event, -, hsame, hcomposed⟩ := hsubmitted.exists_insert
  obtain ⟨_, _, _, _, _, form, _, -, -, -, -, hn, -, hfiles⟩ := hcomposed.exists_form
  have hsubfiles : sub.files = n.files.getD [] := by
    rw [← hsame]
    rfl
  have hsubform : sub.form_id = form.id := by
    rw [← hsame, hn]
    rfl
  obtain ⟨locked, object_keys, recorded, he, u, hu, -, -, huform, hufield, hmetadata⟩ :=
    hfiles _ (hsubfiles ▸ hfile)
  -- And the ledger says what was sent, from when the row was locked on.
  have hsince : w₁.shared.since (World.start db).shared = w₁.shared.log :=
    Shared.since_eq (List.append_nil _).symm
  obtain ⟨w₀, hto₀, hbefore, hfrom₀⟩ := (h.trans hto).visits_of_mem (hsince ▸ he)
  by_cases hnew : ∃ u₀ ∈ db.file_uploads.rows, u₀.Same u
  · obtain ⟨u₀, hu₀, hsame₀⟩ := hnew
    refine .inl ⟨u₀, hu₀, ?_, ?_, ?_⟩
    · rw [hsubform, ← huform, ← hsame₀]
    · exact (congrArg FileUploadRecord.field_key hsame₀).trans hufield
    · exact (congrArg FileUploadRecord.metadata hsame₀).trans hmetadata
  have hlast : Reaches d anything w₀ w' := hfrom₀.trans (hfrom.trans hlater)
  have hu₀ : u ∈ w₀.shared.db.file_uploads.rows := hbefore ▸ hu
  obtain ⟨chunks, hdescribed⟩ := described_of_reaches hdb hto₀ hu₀
    fun u₀ hu₀ hsame₀ => hnew ⟨u₀, hu₀, hsame₀⟩
  obtain ⟨p₀, public_id, filename, declared_type, before₀, form₀, field, hmem, hpublished,
    htarget, -,
    hform₀, hname, -⟩ := hdescribed.sent.exists_upload
  obtain rfl : u.metadata = attachment := hmetadata
  obtain rfl : u.field_key = field_key := hufield
  have hobject : download.object = chunks.flatten :=
    (hdescribed.of_reaches hdb hto₀ hu₀ hlast).object _ (mem_bucket_of_open hopen)
  refine .inr ⟨p₀, public_id, filename, declared_type, before₀, form₀, field, chunks, ?_,
    hform₀.symm.trans (huform.trans hsubform.symm), hpublished, ?_, hfilename.trans hname, hobject⟩
  · rw [hlast.log_eq]
    exact List.mem_append_right _ hmem
  · rw [htype]
    exact htarget

/-- The file of the sample goes out as it came in. -/
theorem downloaded_as_sent_uploadFile :
    let w := Deployment.sample.play anything (uploadFile ++ submitFile) formWithFile
    let download : Download := ⟨[104, 105], "cv.txt", "text/plain"⟩
    Downloads .sample 1 40 "cv" 8 w download w ∧
      ∃ form_id, UploadedAs .sample form_id "cv" download w.shared.log := by
  intro w download
  have hreaches : Reaches .sample anything (World.start formWithFile) w :=
    Deployment.sample.reaches_play anything (uploadFile ++ submitFile) formWithFile
  have hfiles : (w.shared.db.submissionOf 1 40).map (·.files) =
      some [("cv", ⟨"k1", "cv.txt", "text/plain", 2⟩)] := by decide +kernel
  obtain ⟨sub, hsub, hfile⟩ := Option.map_eq_some_iff.mp hfiles
  have horganization : w.shared.db.organizations.find? 1 = some ⟨1, "Acme", 0⟩ := by decide +kernel
  have hmember : w.shared.db.organization_members.find? (1, 8) = some ⟨1, 8, .owner, 0⟩ := by
    decide +kernel
  have hobserves : Observes anything (store Deployment.sample.platform) (Request.code .sample) 0
      (FormService.submission_attachment .sample 1 40 "cv" 8) w
      (.ok ⟨"k1", "cv.txt", "text/plain", 2⟩) w :=
    observes_attachment rfl horganization hmember hsub (by rw [hfile]; rfl)
  have hopen : w.shared.db.open_object "k1" = .ok [104, 105] := by decide +kernel
  have hdownload : Downloads .sample 1 40 "cv" 8 w download w :=
    ⟨0, _, w, hobserves, .refl, hopen, rfl, rfl⟩
  obtain ⟨-, sub', _, -, -, -, -, -, -, -, huploaded⟩ := downloaded_as_sent keysIssued_formWithFile
    (fun sub hsub => absurd hsub List.not_mem_nil) hreaches hdownload
  refine ⟨hdownload, sub'.form_id, huploaded.resolve_left ?_⟩
  rintro ⟨u, hu, -⟩
  exact absurd hu List.not_mem_nil

end Run

end SubmitSnap
