import SubmitSnap.Form.SubmissionFiles

/-!
# Claimed files and the reaper

The reaper reads which uploads are abandoned, and then, upload by upload, deletes the object and
forgets the row. Nothing locks a row between the reading and the deletion, so a submission may claim
it in between: then the object of a committed submission is deleted, and then its row.

The object of a claimed file is safe exactly as long as this does not happen. The proof combines the
discipline of the ledger, by which a row is only forgotten when its object is gone, with the one of
claims, by which a row is only claimed while it is there.

## The argument

Only a deletion takes an object out of the bucket, and only the reaper and a failed upload delete
one; only the reaper forgets a row, and by the discipline of the ledger it does so when the object
is gone. So a row that is claimed and whose object is there keeps both as long as nobody deletes
that object. The regime rules out exactly the two ways in which this can go wrong: an object is
deleted while its row is claimed, or a row is claimed when its object has been deleted. Which of
the two comes about depends on whether the claim commits before the deletion or after it.

## Main definitions

* `FilesKept` — the files of committed submissions are in the bucket and in the ledger.
* `takesClaimed` — the reaper takes a claimed object, or a claim takes a reaped one.

## Main results

* `filesKept_of_reaches` — files are kept in every run that avoids it.
* `not_filesKept` — a claim between the reaper's reading and its deletion loses the file.
-/

namespace SubmitSnap

open Interleave

/-- Every file of a committed submission is in the bucket, and its row is claimed by it. -/
def FilesKept (db : Database) : Prop :=
  ∀ sub ∈ db.submissions.rows, ∀ file ∈ sub.files, file.2.key ∈ db.objects ∧
    ∃ u ∈ db.file_uploads.rows, u.object_key = file.2.key ∧ u.submission_id = some sub.id

/-- The object of every claimed row is in the bucket. -/
def ClaimedStored (db : Database) : Prop :=
  ∀ u ∈ db.file_uploads.rows, u.submission_id.isSome = true → u.object_key ∈ db.objects

/-- A claimed object is deleted, or an upload is claimed whose object is gone. -/
def takesClaimed (db : Database) : Stmt → Prop
  | .delete_object key =>
    ∃ u ∈ db.file_uploads.rows, u.object_key = key ∧ u.submission_id.isSome = true
  | .commit writes => ∃ w ∈ writes, match w with
    | .claim_uploads ids _ => ∃ u ∈ db.file_uploads.rows, u.id ∈ ids ∧ u.object_key ∉ db.objects
    | _ => False
  | _ => False

/-- The runs of uploads, submissions, submission deletions and reaper passes in which no upload is
both reaped and claimed. -/
abbrev reapsApart : Regime :=
  (Regime.free Request.claimsUploads).avoiding fun _ _ q s => takesClaimed s.db q

section ClaimedFiles

variable {P : Platform} {p : ℕ} {r : Request} {q : Stmt} {x : Except Failure q.Reply} {c : Choice}
  {s s' : State} {db db' db₀ : Database} {key : String} {reaps : Prop}

/-- An object stays until it is deleted. -/
theorem mem_objects_of_run (h : q.run P p c db = some (db', x)) (hq : q ≠ .delete_object key)
    (hkey : key ∈ db.objects) : key ∈ db'.objects := by
  by_cases hbucket : q.onBucket
  · cases q with
    | generate_key =>
      simp only [Stmt.run] at h
      split at h <;> cases h
      exact hkey
    | put_object key' =>
      cases h
      exact List.mem_cons_of_mem _ hkey
    | delete_object key' =>
      cases h
      have hne : key ≠ key' := fun heq => hq (by rw [heq])
      obtain ⟨m, hm, rfl⟩ := List.mem_map.mp hkey
      exact List.mem_map_of_mem (List.mem_filter.mpr ⟨hm, by simpa using hne⟩)
    | _ => exact hbucket.elim
  · rw [(Stmt.bucket_eq hbucket h).1]
    exact hkey

/-- Where a claimed row comes from: it was there and claimed, or this commit claims it. -/
theorem claimed_origin (h : q.run P p c s.db = some (db', x)) (hpre : ClaimPre P reaps p s q)
    {u' : FileUploadRecord} (hu' : u' ∈ db'.file_uploads.rows)
    (hclaimed : u'.submission_id.isSome = true) :
    ∃ u ∈ s.db.file_uploads.rows, u.object_key = u'.object_key ∧
      (u.submission_id.isSome = true ∨ ∃ writes ids id, q = .commit writes ∧
        .claim_uploads ids id ∈ writes ∧ u.id ∈ ids) := by
  rcases Stmt.upload_origin h hu' with ⟨u, hu, hid, hkey⟩ | ⟨_, _, -, hunclaimed, -⟩
  · refine ⟨u, hu, hkey, ?_⟩
    rcases upload_fate h hpre hu with hstays | ⟨_, row, _, ids, -, hmem, rfl⟩ |
      ⟨_, _, -, hold, -⟩ | ⟨rfl, -⟩
    · rw [Table.eq_of_key_eq _ hstays hu' hid]
      exact .inl hclaimed
    · exact .inr ⟨_, ids, row.id, rfl, by simp, hmem⟩
    · rw [hold]
      exact .inl rfl
    · simp only [Stmt.run, UploadStmt.run] at h
      split at h <;> cases h
      exact absurd hid.symm (beq_eq_false_iff_ne.mp (Table.mem_deleteWhere.mp hu').2)
  · rw [hunclaimed] at hclaimed
    cases hclaimed

/-- A claimed row is never forgotten: its object would have to be gone. -/
theorem unclaimed_of_forget (hs : LedgerInv db₀ s) (hstored : ClaimedStored s.db)
    {u : FileUploadRecord} (hpre : LedgerPre p s (.uploads (.forget u.id)))
    (hu : u ∈ s.db.file_uploads.rows) : u.submission_id = none := by
  obtain ⟨u₀, hlisted, hid, hgone⟩ := hpre
  rw [← (hs.listed u₀ hlisted).2.2 u hu hid.symm] at hgone
  by_contra hclaimed
  exact hgone (hstored u hu (Option.isSome_iff_ne_none.mpr hclaimed))

/-- What every statement of such a run keeps. Neither part would do alone: that files are claimed
needs that claimed rows are not forgotten, which is so because their objects are there; and that
claimed objects are there is about rows, not about the files of submissions. -/
structure KeptInv (s : State) : Prop where
  files : FilesClaimed s.db
  stored : ClaimedStored s.db

theorem KeptInv.filesKept (hs : KeptInv s) : FilesKept s.db := by
  intro sub hsub file hfile
  obtain ⟨u, hu, hclaimed, -, -, hmeta⟩ := hs.files sub hsub file hfile
  have hkey : u.object_key = file.2.key := by
    rw [← hmeta]
    rfl
  refine ⟨?_, u, hu, hkey, hclaimed⟩
  rw [← hkey]
  exact hs.stored u hu (by rw [hclaimed]; rfl)
/-- Every statement of the regime keeps it. A row is not forgotten while it is claimed, for it
would have to be without its object; an object goes by a deletion only, and the regime has none of
a claimed object; and a claim of rows without an object is excluded as well. -/
theorem KeptInv.effect (hs : KeptInv s) (hledger : LedgerInv db₀ s) (hpre : LedgerPre p s q)
    (hpre' : ClaimPre P reaps p s q) (h : reapsApart.Effect (store P) p r q s x s') :
    KeptInv s' := by
  cases h with
  | fail _ => exact ⟨hs.files, hs.stored⟩
  | @run c db' x hadmits hrun =>
    have hnot : ¬ takesClaimed s.db q := hadmits.2
    refine ⟨hs.files.run hrun hpre' fun u hu heq => ?_, fun u' hu' hclaimed => ?_⟩
    · subst heq
      exact unclaimed_of_forget hledger hs.stored hpre hu
    · obtain ⟨u, hu, hkey, horigin⟩ := claimed_origin hrun hpre' hu' hclaimed
      have hkept : q ≠ .delete_object u.object_key → u.object_key ∈ s.db.objects →
          u.object_key ∈ db'.objects := mem_objects_of_run hrun
      change u'.object_key ∈ db'.objects
      rw [← hkey]
      rcases horigin with hclaimed | ⟨writes, ids, id, rfl, hmem, hid⟩
      · refine hkept ?_ (hs.stored u hu hclaimed)
        rintro rfl
        exact hnot ⟨u, hu, rfl, hclaimed⟩
      · refine hkept (fun heq => by cases heq) ?_
        by_contra hgone
        exact hnot ⟨_, hmem, u, hu, hid, hgone⟩

end ClaimedFiles

/-- **Claimed files are kept**, in every run in which the reaper and a claim do not get hold of the
same upload. -/
theorem filesKept_of_reaches {d : Deployment} {db : Database} {w : World} (hdb : LedgerIssued db)
    (hlocks : db.locks = []) (hfiles : FilesClaimed db) (hstored : ClaimedStored db)
    (h : Reaches d reapsApart (World.start db) w) : FilesKept w.shared.db := by
  let L := (ledgerLogic d.platform db reapsApart).prod (claimLogic d.platform reapsApart)
  have hspec : ∀ p r s, reapsApart.spawns r → L.inv s → (∀ e ∈ s.log, e.pid ≠ p) →
      L.wp p r (Request.code d r) (fun y s' => NonePending p s' ∧ NoPost y s') s := by
    intro p r s hr hs hfresh
    have hhandles : r.handlesUploads := by
      have hclaims : r.claimsUploads := hr
      cases r <;> trivial
    exact Logic.wp_prod (wp_handlesUploads hhandles hs.1 hfresh) (wp_claimsUploads hr hr hs.2)
  have hstart : L.Safe (fun p _ y s' => NonePending p s' ∧ NoPost y s') (World.start db) := by
    refine .start ⟨LedgerInv.start hdb, ?_⟩
    change db.locks.Exclusive
    rw [hlocks]
    exact Locks.exclusive_nil
  have hkept : KeptInv w.shared := by
    refine Logic.inv_of_reaches (I := KeptInv) hspec hstart ⟨hfiles, hstored⟩ ?_ ?_ ?_ h
    · exact fun hs hpre hI he => hI.effect hs.1 hpre.1 hpre.2 he
    · exact fun _ hI => ⟨hI.files, hI.stored⟩
    · exact fun hI => ⟨hI.files, hI.stored⟩
  exact hkept.filesKept

/-! ### A late claim -/

instance (db : Database) : DecidablePred (takesClaimed db) := fun q => by
  induction q using Stmt.casesOn with
  | commit =>
    refine @List.decidableBEx _ _ (fun w => ?_) _
    induction w using Write.casesOn <;> (dsimp only; infer_instance)
  | _ => delta takesClaimed; infer_instance

instance : DecidablePred Request.claimsUploads := fun r => by
  induction r using Request.casesOn <;> (delta Request.claimsUploads; infer_instance)

instance (db : Database) : Decidable (FilesKept db) :=
  inferInstanceAs (Decidable (∀ sub ∈ db.submissions.rows, ∀ file ∈ sub.files,
    file.2.key ∈ db.objects ∧ ∃ u ∈ db.file_uploads.rows, u.object_key = file.2.key ∧
      u.submission_id = some sub.id))

/-- A day later a reaper reads that the upload is abandoned. -/
def reaperReads : List Step :=
  [.pass (seconds 90000), .spawn 2 .reap_abandoned_uploads, .step 2 {}, .step 2 {}]

/-- It deletes the object and forgets the row. -/
def reaperDeletes : List Step := [.step 2 {}, .step 2 {}]

/-- **A late claim loses its file**: it is committed between the reaper's reading and its
deletion. -/
theorem not_filesKept : ¬ ∀ w, Reaches .sample (Regime.free Request.claimsUploads)
    (World.start formWithFile) w → FilesKept w.shared.db := by
  intro hall
  have hkept := hall _ (Deployment.sample.reaches_play _
    (uploadFile ++ reaperReads ++ submitFile ++ reaperDeletes) formWithFile)
  revert hkept
  decide +kernel

/-- A claim that comes before the reaper's reading keeps its file. -/
theorem filesKept_claimedFirst :
    let w := Deployment.sample.play reapsApart (uploadFile ++ submitFile ++ reaperReads)
      formWithFile
    (w.shared.db.submissions.rows.map fun sub => (sub.id, sub.files.map (·.2.key))) =
        [(40, ["k1"])] ∧ FilesKept w.shared.db :=
  ⟨by decide +kernel, filesKept_of_reaches ⟨by decide, by decide⟩ rfl
    (fun _ h => absurd h List.not_mem_nil) (fun _ h => absurd h List.not_mem_nil)
    (Deployment.sample.reaches_play reapsApart _ formWithFile)⟩

end SubmitSnap
