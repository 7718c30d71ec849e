import SubmitSnap.Footprints

/-!
# The upload ledger and the bucket

Two stores that no transaction joins: rows of `file_uploads`, and objects under keys. An upload puts
its object under a key nobody has had before and writes the row afterwards; the reaper deletes the
object of a row before it forgets the row. What both count on is the life of a key, which is
generated once, held by one upload until that puts an object under it, and never used for another.

The logic of this module proves that discipline for the requests around uploads, in any regime. It
is what the results on claimed files and on orphaned objects rest on.

## The argument

A key goes through four stages: it is generated and held, an object is put under it, a row names
it, and its object is deleted. All the discipline needs to know of the past is which of these have
happened, and that is read off the log. `KeyHeld` and `Pending` are of the shape "this has
happened, and that has not happened since", so they change only by the events they speak of.

What a process knows of its own key lasts for a simple reason: the events that end it are the
process's own. And what everybody may count on is that a key which is known, and whose object is
gone, never has an object again, because an object is put under a held key only and a held key is
not known. That is the rely condition of `ledgerLogic`, and it is what lets the reaper delete the
object first and forget the row afterwards without looking again.

## Main definitions

* `KeyHeld`, `WasPut`, `Known` — the life of a key.
* `Pending` — an upload has put an object and not yet dealt with its row.
* `ledgerLogic` — a put uses a held key, an insert names an object that was put, and a row is only
  forgotten when its object is gone.

## Main results

* `Stmt.uploads_same` — no statement but the insert makes a ledger row, or changes what one says.
* `wp_handlesUploads` — the requests keep to the discipline, and leave no object pending.
-/

namespace SubmitSnap

open Interleave
open Interleave.Script (ret when mapError result forEach)

/-! ### Ledger rows -/

/-- The same row of the ledger, whoever has claimed it. -/
def FileUploadRecord.Same (u u' : FileUploadRecord) : Prop :=
  { u with submission_id := u'.submission_id } = u'

theorem FileUploadRecord.Same.refl (u : FileUploadRecord) : u.Same u := rfl

theorem FileUploadRecord.Same.trans {u u' u'' : FileUploadRecord} (h : u.Same u')
    (h' : u'.Same u'') : u.Same u'' := by
  rw [← h', ← h]
  rfl

theorem FileUploadRecord.Same.names {u u' : FileUploadRecord} (h : u.Same u') :
    u.id = u'.id ∧ u.object_key = u'.object_key := by
  rw [← h]
  exact ⟨rfl, rfl⟩

/-- Every ledger row of `db'` is the same as one of `db`. -/
def UploadsSame (db db' : Database) : Prop :=
  ∀ u' ∈ db'.file_uploads.rows, ∃ u ∈ db.file_uploads.rows, u.Same u'

namespace UploadsSame

variable {db db₁ db₂ db' : Database}

theorem of_eq (h : db'.file_uploads = db.file_uploads) : UploadsSame db db' := by
  intro u hu
  rw [h] at hu
  exact ⟨u, hu, .refl u⟩

theorem trans (h : UploadsSame db db₁) (h' : UploadsSame db₁ db₂) : UploadsSame db db₂ := by
  intro u₂ hu₂
  obtain ⟨u₁, hu₁, hsame₁⟩ := h' u₂ hu₂
  obtain ⟨u, hu, hsame⟩ := h u₁ hu₁
  exact ⟨u, hu, hsame.trans hsame₁⟩

theorem of_deleteWhere {sel : FileUploadRecord → Bool}
    (h : db'.file_uploads = db.file_uploads.deleteWhere sel) : UploadsSame db db' := by
  intro u hu
  rw [h] at hu
  exact ⟨u, (Table.mem_deleteWhere.mp hu).1, .refl u⟩

/-- Claiming rows, or giving them back, changes nothing else. -/
theorem of_updateWhere {sel : FileUploadRecord → Bool} {submission_id : Option Uuid}
    (h : db'.file_uploads = db.file_uploads.updateWhere sel
      (fun u => { u with submission_id := submission_id }) fun _ => rfl) : UploadsSame db db' := by
  intro u' hu'
  rw [h] at hu'
  obtain ⟨u, hu, ⟨-, rfl⟩ | ⟨-, rfl⟩⟩ := Table.of_mem_updateWhere hu'
  · exact ⟨u, hu, rfl⟩
  · exact ⟨u', hu, .refl u'⟩

end UploadsSame

namespace Database

variable (db : Database)

theorem cascadeForm_same (gone : Uuid → Bool) : UploadsSame db (db.cascadeForm gone) := by
  unfold cascadeForm
  extract_lets db₁ db₂
  have h₁ : UploadsSame db db₁ := .of_updateWhere rfl
  have h₂ : UploadsSame db₁ db₂ := .of_eq rfl
  exact (h₁.trans h₂).trans (.of_deleteWhere rfl)

theorem cascadeOrganization_same (gone : Uuid) : UploadsSame db (db.cascadeOrganization gone) := by
  unfold cascadeOrganization
  extract_lets db₁ db₂ db₃
  have h₁ : UploadsSame db db₁ := db.cascadeForm_same _
  have h₂ : UploadsSame db₁ db₂ := .of_updateWhere rfl
  have h₃ : UploadsSame db₂ db₃ := .of_eq rfl
  exact ((h₁.trans h₂).trans h₃).trans (.of_deleteWhere rfl)

end Database

section Statements

variable {P : Platform} {p : ℕ} {c : Choice} {db db' : Database}

theorem Write.uploads_same (db : Database) (ws : List Write) :
    UploadsSame db (Write.applyAll db ws) := by
  induction ws generalizing db with
  | nil => exact .of_eq rfl
  | cons w ws ih =>
    refine UploadsSame.trans ?_ (ih (w.apply db))
    cases w with
    | claim_uploads ids submission_id => exact .of_updateWhere rfl
    | _ => exact .of_eq rfl

/-- A statement that is not the insert of a row leaves the rows that stay as they are, but for who
has claimed them. -/
theorem Stmt.uploads_same {q : Stmt} {x : Except Failure q.Reply}
    (hq : ∀ upload, q ≠ .uploads (.insert upload)) (h : q.run P p c db = some (db', x)) :
    UploadsSame db db' := by
  cases hreach : Part.file_uploads.reachedBy q with
  | false => exact .of_eq (Stmt.footprint .file_uploads hreach h)
  | true =>
    cases q with
    | uploads q =>
      cases q with
      | insert upload => exact absurd rfl (hq upload)
      | lock_for_claim form_id object_keys =>
        simp only [Stmt.run, UploadStmt.run] at h
        split at h <;> cases h
        obtain ⟨ls, hls⟩ := Database.lockAll_eq p .update _ db
        rw [hls]
        exact .of_eq rfl
      | claim object_keys =>
        simp only [Stmt.run, UploadStmt.run] at h
        split at h <;> cases h
        obtain ⟨ls, hls⟩ := Database.lockAll_eq p .noKeyUpdate _ db
        rw [hls]
        exact .of_eq rfl
      | abandoned older_than limit =>
        cases h
        exact .of_eq rfl
      | forget id =>
        simp only [Stmt.run, UploadStmt.run] at h
        split at h <;> cases h
        exact .of_deleteWhere rfl
    | submissions q =>
      cases q with
      | delete organization_id id =>
        simp only [Stmt.run, SubmissionStmt.run] at h
        (repeat' split at h) <;> cases h
        · exact .of_eq rfl
        · exact .of_updateWhere rfl
      | _ => cases hreach
    | forms q =>
      cases q with
      | delete organization_id id =>
        simp only [Stmt.run, FormStmt.run] at h
        (repeat' split at h) <;> cases h
        · exact .of_eq rfl
        · exact db.cascadeForm_same _
      | _ => cases hreach
    | organizations q =>
      cases q with
      | delete id =>
        simp only [Stmt.run, OrganizationStmt.run] at h
        split at h <;> cases h
        exact db.cascadeOrganization_same id
      | _ => cases hreach
    | commit ws =>
      cases h
      exact Write.uploads_same db ws
    | _ => cases hreach

/-- What the insert of a row does: a new row for the object, or nothing but an error. -/
theorem UploadStmt.run_insert {upload : NewFileUpload} {x : Except Failure FileUploadRecord}
    (h : (UploadStmt.insert upload).run p c db = some (db', x)) :
    ((∃ e, x = .error e) ∧ db' = db) ∨
      ∃ row, x = .ok row ∧ row.object_key = upload.object_key ∧ row.id = c.id ∧ c.id ∉ db.issued ∧
        row.submission_id = none ∧
        db' = { db.issue c.id with file_uploads := db.file_uploads.insertNew row } := by
  simp only [UploadStmt.run] at h
  split at h
  · next hfree =>
    have hnew : c.id ∉ db.issued := by
      have hunused := (Bool.and_eq_true_iff.mp (Bool.and_eq_true_iff.mp hfree).1).1
      simpa [Database.unused] using hunused
    (repeat' split at h) <;> cases h
    all_goals first
      | exact .inl ⟨⟨_, rfl⟩, rfl⟩
      | exact .inr ⟨_, rfl, rfl, rfl, hnew, rfl, rfl⟩
  · cases h

/-- The statements that touch the bucket or make a key. -/
def Stmt.onBucket : Stmt → Prop
  | generate_key | put_object _ | delete_object _ => True
  | _ => False

theorem Stmt.bucket_eq {q : Stmt} {x : Except Failure q.Reply} (hq : ¬ q.onBucket)
    (h : q.run P p c db = some (db', x)) :
    db'.objects = db.objects ∧ db'.issued_keys = db.issued_keys := by
  have hbucket : Part.bucket.reachedBy q = false := by
    cases q with
    | put_object _ | delete_object _ => exact absurd trivial hq
    | _ => rfl
  have hkeys : Part.issued_keys.reachedBy q = false := by
    cases q with
    | generate_key => exact absurd trivial hq
    | _ => rfl
  exact ⟨congrArg (List.map Prod.fst) (Stmt.footprint .bucket hbucket h),
    Stmt.footprint .issued_keys hkeys h⟩

end Statements

/-! ### The life of a key

The stages of a key are read off the log. Each is of the form that something has happened and
nothing has undone it since (`Since`), or that it has happened at all. -/

/-- The event is `p` being given the new key `key`. -/
def generatesKey (p : ℕ) (key : String) : Event → Prop
  | ⟨p', _, _, .generate_key, .ok key'⟩ => p' = p ∧ key' = key
  | _ => False

/-- The event is `p` putting an object under `key`. -/
def putsObject (p : ℕ) (key : String) : Event → Prop
  | ⟨p', _, _, .put_object key', .ok _⟩ => p' = p ∧ key' = key
  | _ => False

/-- The event is `p` dealing with the object it has put under `key`: its row is written, or the
deletion of the object has been asked for. -/
def settlesObject (p : ℕ) (key : String) : Event → Prop
  | ⟨p', _, _, .uploads (.insert upload), .ok _⟩ => p' = p ∧ upload.object_key = key
  | ⟨p', _, _, .delete_object key', _⟩ => p' = p ∧ key' = key
  | _ => False

/-- `p` was given `key` and has not used it. -/
abbrev KeyHeld (p : ℕ) (key : String) : List Event → Prop :=
  Since (generatesKey p key) (putsObject p key)

/-- `p` has put an object under `key` and not yet dealt with it. -/
abbrev Pending (p : ℕ) (key : String) : List Event → Prop :=
  Since (putsObject p key) (settlesObject p key)

/-- An object has been put under `key`. -/
def WasPut (key : String) (log : List Event) : Prop := ∃ e ∈ log, ∃ p, putsObject p key e

/-- An object has been put under `key`, now or before the run began from `db₀`. -/
def Known (db₀ : Database) (key : String) (log : List Event) : Prop :=
  key ∈ db₀.issued_keys ∨ WasPut key log

/-- A reaper has been handed the row `u`. -/
def WasListed (u : FileUploadRecord) (log : List Event) : Prop :=
  ∃ p r db older_than limit us,
    ⟨p, r, db, .uploads (.abandoned older_than limit), .ok us⟩ ∈ log ∧ u ∈ us

/-- The discipline, and what it takes to keep it: a held key is new and has one holder, the key of a
row is not, and a row that was listed has not changed its key.

The last part is for the reaper, which works from a list it was handed some time ago. A listed row
may have been claimed or forgotten since, but its identifier is never given to a row with another
key. So what the reaper deletes is the object of the row it then forgets. -/
structure LedgerInv (db₀ : Database) (s : State) : Prop where
  issued_keys : ∀ key, Known db₀ key s.log → key ∈ s.db.issued_keys
  held : ∀ p key, KeyHeld p key s.log → key ∈ s.db.issued_keys ∧ ¬ Known db₀ key s.log
  holder : ∀ p p' key, KeyHeld p key s.log → KeyHeld p' key s.log → p = p'
  row : ∀ u ∈ s.db.file_uploads.rows, Known db₀ u.object_key s.log ∧ u.id ∈ s.db.issued
  listed : ∀ u, WasListed u s.log → Known db₀ u.object_key s.log ∧ u.id ∈ s.db.issued ∧
    ∀ u' ∈ s.db.file_uploads.rows, u'.id = u.id → u'.object_key = u.object_key

/-- The statements of the requests around uploads, each with what has to hold when it is issued. -/
def LedgerPre (p : ℕ) (s : State) : Stmt → Prop
  | .organizations (.access _ _) | .organizations (.delete _) | .forms (.find _ _)
  | .forms (.find_by_public_id _) | .forms (.delete _ _) | .submissions (.insert _ _)
  | .submissions (.delete _ _) | .uploads (.lock_for_claim _ _) | .uploads (.claim _)
  | .uploads (.abandoned _ _) | .begin_tx | .commit _ | .rollback | .now | .generate_key
  | .check_key _ | .delete_object _ => True
  | .begin_upload key | .write_part key _ | .flush_parts key | .put_object key
  | .abort_upload key => KeyHeld p key s.log
  | .uploads (.insert upload) => WasPut upload.object_key s.log
  | .uploads (.forget id) => ∃ u, WasListed u s.log ∧ u.id = id ∧ u.object_key ∉ s.db.objects
  | _ => False

section Keys

variable {P : Platform} {p p' : ℕ} {r : Request} {q : Stmt} {x : Except Failure q.Reply}
  {c : Choice}
  {s s' : State} {db db' db₀ : Database} {key : String} {e : Event} {log : List Event}
  {u : FileUploadRecord} {G : Regime}

theorem pid_of_generatesKey (h : generatesKey p key e) : e.pid = p := by
  unfold generatesKey at h
  split at h
  · exact h.1
  · exact h.elim

theorem pid_of_putsObject (h : putsObject p key e) : e.pid = p := by
  unfold putsObject at h
  split at h
  · exact h.1
  · exact h.elim

theorem pid_of_settlesObject (h : settlesObject p key e) : e.pid = p := by
  unfold settlesObject at h
  split at h
  · exact h.1
  · exact h.1
  · exact h.elim

theorem Known.mono {log' : List Event} (h : Known db₀ key log) (hlog : ∀ e ∈ log, e ∈ log') :
    Known db₀ key log' := by
  refine h.imp_right ?_
  rintro ⟨e, he, hput⟩
  exact ⟨e, hlog e he, hput⟩

theorem known_cons (h : ∀ p, ¬ putsObject p key e) :
    Known db₀ key (e :: log) ↔ Known db₀ key log := by
  refine ⟨fun hk => ?_, fun hk => hk.mono fun _ => List.mem_cons_of_mem _⟩
  refine hk.imp_right ?_
  rintro ⟨e', he', p, hput⟩
  rcases List.mem_cons.mp he' with rfl | he'
  · exact absurd hput (h p)
  · exact ⟨e', he', p, hput⟩

theorem wasListed_cons : WasListed u (e :: log) → WasListed u log ∨
    ∃ p r db older_than limit us,
      e = ⟨p, r, db, .uploads (.abandoned older_than limit), .ok us⟩ ∧ u ∈ us := by
  rintro ⟨p, r, db, older_than, limit, us, he, hu⟩
  rcases List.mem_cons.mp he with rfl | he
  · exact .inr ⟨p, r, db, older_than, limit, us, rfl, hu⟩
  · exact .inl ⟨p, r, db, older_than, limit, us, he, hu⟩

/-- The event gives nobody a key and puts no object. -/
def Idle (e : Event) : Prop := (∀ p key, ¬ generatesKey p key e) ∧ ∀ p key, ¬ putsObject p key e

theorem keyHeld_cons_of_idle (he : Idle e) : KeyHeld p key (e :: log) ↔ KeyHeld p key log :=
  since_cons_of_not (he.1 p key) (he.2 p key)

theorem idle_of_error {err : Failure} : Idle ⟨p, r, db, q, .error err⟩ := by
  refine ⟨fun p' key h => ?_, fun p' key h => ?_⟩
  · unfold generatesKey at h
    split at h
    · next heq => cases heq
    · exact h
  · unfold putsObject at h
    split at h
    · next heq => cases heq
    · exact h

theorem idle_of_not_onBucket (hq : ¬ q.onBucket) : Idle ⟨p, r, db, q, x⟩ := by
  refine ⟨fun p' key h => ?_, fun p' key h => ?_⟩
  · unfold generatesKey at h
    split at h
    · next heq =>
      cases heq
      exact hq trivial
    · exact h
  · unfold putsObject at h
    split at h
    · next heq =>
      cases heq
      exact hq trivial
    · exact h

/-! #### What keeps the discipline

Statements fall into three groups: those that make a key, those that put an object, and the idle
rest. One lemma for each, and the theorem at the end puts them together. -/

/-- An idle event keeps it, if the rows it leaves were there or name an object that was put. -/
theorem LedgerInv.idle (hs : LedgerInv db₀ s) (he : Idle e)
    (hkeys : db'.issued_keys = s.db.issued_keys) (hissued : ∃ n, db'.issued = n ++ s.db.issued)
    (hrows : ∀ u' ∈ db'.file_uploads.rows, (∃ u ∈ s.db.file_uploads.rows, u.id = u'.id ∧
      u.object_key = u'.object_key) ∨
      Known db₀ u'.object_key s.log ∧ u'.id ∉ s.db.issued ∧ u'.id ∈ db'.issued)
    (hlisted : ∀ u, WasListed u (e :: s.log) → WasListed u s.log ∨ u ∈ s.db.file_uploads.rows) :
    LedgerInv db₀ ⟨db', e :: s.log⟩ := by
  have hknown : ∀ key, Known db₀ key (e :: s.log) ↔ Known db₀ key s.log :=
    fun key => known_cons fun p => he.2 p key
  have hmono : ∀ {id}, id ∈ s.db.issued → id ∈ db'.issued := by
    intro id hid
    obtain ⟨n, hn⟩ := hissued
    rw [hn]
    exact List.mem_append_right _ hid
  refine ⟨fun key hkey => ?_, fun p key hheld => ?_, fun p p' key h h' => ?_, fun u' hu' => ?_,
    fun u hu => ?_⟩
  · change key ∈ db'.issued_keys
    rw [hkeys]
    exact hs.issued_keys key ((hknown key).mp hkey)
  · change key ∈ db'.issued_keys ∧ _
    rw [hkeys, hknown]
    exact hs.held p key ((keyHeld_cons_of_idle he).mp hheld)
  · exact hs.holder p p' key ((keyHeld_cons_of_idle he).mp h) ((keyHeld_cons_of_idle he).mp h')
  · rw [hknown]
    rcases hrows u' hu' with ⟨u, hu, hid, hkey⟩ | ⟨hkey, -, hnew⟩
    · rw [← hid, ← hkey]
      exact ⟨(hs.row u hu).1, hmono (hs.row u hu).2⟩
    · exact ⟨hkey, hnew⟩
  · rw [hknown]
    -- What was listed is a row, or was one, and its identifier is taken.
    have hthen : Known db₀ u.object_key s.log ∧ u.id ∈ s.db.issued ∧
        ∀ u' ∈ s.db.file_uploads.rows, u'.id = u.id → u'.object_key = u.object_key := by
      rcases hlisted u hu with hu | hu
      · exact hs.listed u hu
      · refine ⟨(hs.row u hu).1, (hs.row u hu).2, fun u' hu' hid => ?_⟩
        rw [Table.eq_of_key_eq _ hu' hu hid]
    obtain ⟨hkey, hid, hsame⟩ := hthen
    refine ⟨hkey, hmono hid, fun u' hu' hid' => ?_⟩
    rcases hrows u' hu' with ⟨u₀, hu₀, hid₀, hkey₀⟩ | ⟨-, hnew, -⟩
    · rw [← hkey₀]
      exact hsame u₀ hu₀ (hid₀.trans hid')
    · rw [hid'] at hnew
      exact absurd hid hnew

/-- A new key is held by the process it is given to, and by nobody else. -/
theorem LedgerInv.generate_key (hs : LedgerInv db₀ s) (hnew : key ∉ s.db.issued_keys) :
    LedgerInv db₀ ⟨{ s.db with issued_keys := key :: s.db.issued_keys },
      ⟨p, r, s.db, .generate_key, .ok key⟩ :: s.log⟩ := by
  have hknown : ∀ key', Known db₀ key' (⟨p, r, s.db, .generate_key, .ok key⟩ :: s.log) ↔
      Known db₀ key' s.log := fun key' => known_cons fun _ => id
  have hheld : ∀ {p' key'}, KeyHeld p' key' (⟨p, r, s.db, .generate_key, .ok key⟩ :: s.log) →
      (p = p' ∧ key = key') ∨ KeyHeld p' key' s.log := fun h => h.imp_right And.right
  have hother : ∀ p', ¬ KeyHeld p' key s.log := fun p' h => hnew (hs.held p' key h).1
  refine ⟨fun key' hkey => ?_, fun p' key' h => ?_, fun p₁ p₂ key' h₁ h₂ => ?_, fun u hu => ?_,
    fun u hu => ?_⟩
  · exact List.mem_cons_of_mem _ (hs.issued_keys key' ((hknown key').mp hkey))
  · rw [hknown]
    rcases hheld h with ⟨-, rfl⟩ | h
    · exact ⟨List.mem_cons_self, fun hkey => hnew (hs.issued_keys key hkey)⟩
    · exact ⟨List.mem_cons_of_mem _ (hs.held p' key' h).1, (hs.held p' key' h).2⟩
  · rcases hheld h₁ with ⟨rfl, rfl⟩ | h₁ <;> rcases hheld h₂ with ⟨rfl, heq⟩ | h₂
    · rfl
    · exact absurd h₂ (hother p₂)
    · subst heq
      exact absurd h₁ (hother p₁)
    · exact hs.holder p₁ p₂ key' h₁ h₂
  · rw [hknown]
    exact hs.row u hu
  · rw [hknown]
    rcases wasListed_cons hu with hu | ⟨_, _, _, _, _, _, heq, -⟩
    · exact hs.listed u hu
    · cases heq

/-- Putting an object under a held key uses the key up. -/
theorem LedgerInv.put_object (hs : LedgerInv db₀ s) (hheld : KeyHeld p key s.log) :
    LedgerInv db₀ ⟨{ s.db with
        bucket := (key, s.db.bytes_for key) :: s.db.bucket
        multiparts := s.db.multiparts.filter (·.1 != key) },
      ⟨p, r, s.db, .put_object key, .ok ()⟩ :: s.log⟩ := by
  have hmono : ∀ {key'}, Known db₀ key' s.log →
      Known db₀ key' (⟨p, r, s.db, .put_object key, .ok ()⟩ :: s.log) :=
    fun h => h.mono fun _ => List.mem_cons_of_mem _
  have hput : ∀ {key'}, Known db₀ key' (⟨p, r, s.db, .put_object key, .ok ()⟩ :: s.log) →
      key' ≠ key → Known db₀ key' s.log := by
    intro key' hkey hne
    have hnot : ∀ p', ¬ putsObject p' key' ⟨p, r, s.db, .put_object key, .ok ()⟩ :=
      fun _ h => hne h.2.symm
    exact (known_cons hnot).mp hkey
  have hrest : ∀ {p' key'}, KeyHeld p' key' (⟨p, r, s.db, .put_object key, .ok ()⟩ :: s.log) →
      KeyHeld p' key' s.log ∧ key' ≠ key := by
    intro p' key' h
    obtain ⟨hnot, hold⟩ := h.resolve_left not_false
    refine ⟨hold, fun heq => hnot ?_⟩
    subst heq
    exact ⟨hs.holder p p' key' hheld hold, rfl⟩
  refine ⟨fun key' hkey => ?_, fun p' key' h => ?_, fun p₁ p₂ key' h₁ h₂ => ?_, fun u hu => ?_,
    fun u hu => ?_⟩
  · by_cases heq : key' = key
    · subst heq
      exact (hs.held p key' hheld).1
    · exact hs.issued_keys key' (hput hkey heq)
  · obtain ⟨h, hne⟩ := hrest h
    exact ⟨(hs.held p' key' h).1, fun hkey => (hs.held p' key' h).2 (hput hkey hne)⟩
  · exact hs.holder p₁ p₂ key' (hrest h₁).1 (hrest h₂).1
  · exact ⟨hmono (hs.row u hu).1, (hs.row u hu).2⟩
  · rcases wasListed_cons hu with hu | ⟨_, _, _, _, _, _, heq, -⟩
    · exact ⟨hmono (hs.listed u hu).1, (hs.listed u hu).2⟩
    · cases heq

/-- What the reaper is handed are unclaimed rows. -/
theorem UploadStmt.mem_abandoned {older_than : Timestamp} {limit : ℕ} {us : List FileUploadRecord}
    (h : (UploadStmt.abandoned older_than limit).run p c db = some (db', .ok us)) (hu : u ∈ us) :
    u ∈ db.file_uploads.rows ∧ u.submission_id = none := by
  simp only [UploadStmt.run, Option.some.injEq, Prod.mk.injEq, Except.ok.injEq] at h
  obtain ⟨-, rfl⟩ := h
  have hmem := (List.mem_insertionSort _).mp (List.mem_of_mem_take hu)
  obtain ⟨hrow, hsel⟩ := List.mem_filter.mp hmem
  exact ⟨hrow, Option.isNone_iff_eq_none.mp (Bool.and_eq_true_iff.mp hsel).1⟩

/-- Where a row comes from: it was there, or this is the insert that makes it. -/
theorem Stmt.upload_origin (h : q.run P p c db = some (db', x)) {u' : FileUploadRecord}
    (hu' : u' ∈ db'.file_uploads.rows) :
    (∃ u ∈ db.file_uploads.rows, u.id = u'.id ∧ u.object_key = u'.object_key) ∨
      ∃ upload, q = .uploads (.insert upload) ∧ u'.object_key = upload.object_key ∧
        u'.submission_id = none ∧ u'.id ∉ db.issued ∧ u'.id ∈ db'.issued := by
  by_cases hq : ∃ upload, q = .uploads (.insert upload)
  · obtain ⟨upload, rfl⟩ := hq
    rcases UploadStmt.run_insert h with ⟨-, rfl⟩ | ⟨row, -, hkey, hid, hnew, hunclaimed, rfl⟩
    · exact .inl ⟨u', hu', rfl, rfl⟩
    · rcases Table.mem_insertNew.mp hu' with hu' | ⟨rfl, -⟩
      · exact .inl ⟨u', hu', rfl, rfl⟩
      · refine .inr ⟨upload, rfl, hkey, hunclaimed, ?_⟩
        rw [hid]
        exact ⟨hnew, List.mem_cons_self⟩
  · obtain ⟨u, hu, hsame⟩ := Stmt.uploads_same (fun upload heq => hq ⟨upload, heq⟩) h u' hu'
    exact .inl ⟨u, hu, hsame.names⟩

/-- Every statement of the requests keeps the discipline. Two of them change what is known of
keys, the generation of one and the put; all others are idle, and for these it is enough to know
where the rows come from (`Stmt.upload_origin`). -/
theorem LedgerInv.effect (hs : LedgerInv db₀ s) (hpre : LedgerPre p s q)
    (h : G.Effect (store P) p r q s x s') : LedgerInv db₀ s' := by
  cases h with
  | fail _ =>
    refine hs.idle idle_of_error rfl ⟨[], rfl⟩ (fun u hu => .inl ⟨u, hu, rfl, rfl⟩) fun u hu => ?_
    rcases wasListed_cons hu with hu | ⟨_, _, _, _, _, _, heq, -⟩
    · exact .inl hu
    · cases heq
  | @run c db' x _ hrun =>
    have hissued : ∃ n, db'.issued = n ++ s.db.issued := Stmt.issued_mono hrun
    have hlisted : ∀ u, WasListed u (⟨p, r, s.db, q, x⟩ :: s.log) →
        WasListed u s.log ∨ u ∈ s.db.file_uploads.rows := by
      intro u hu
      rcases wasListed_cons hu with hold | ⟨_, _, _, _, _, us, heq, hmem⟩
      · exact .inl hold
      · cases heq
        have hrun' : (UploadStmt.abandoned _ _).run p c s.db = some (db', .ok us) := hrun
        exact .inr (UploadStmt.mem_abandoned hrun' hmem).1
    by_cases hq : q.onBucket
    · cases q with
      | generate_key =>
        simp only [store, Stmt.run] at hrun
        split at hrun
        · cases hrun
        · next hnew =>
          cases hrun
          exact hs.generate_key hnew
      | put_object key =>
        cases hrun
        exact hs.put_object hpre
      | delete_object key =>
        cases hrun
        exact hs.idle ⟨fun _ _ => id, fun _ _ => id⟩ rfl hissued
          (fun u hu => .inl ⟨u, hu, rfl, rfl⟩) hlisted
      | _ => exact hq.elim
    · refine hs.idle (idle_of_not_onBucket hq) (Stmt.bucket_eq hq hrun).2 hissued
        (fun u' hu' => ?_) hlisted
      refine (Stmt.upload_origin hrun hu').imp_right ?_
      rintro ⟨upload, rfl, hkey, -, hnew, hin⟩
      rw [hkey]
      exact ⟨.inr hpre, hnew, hin⟩

/-- An object is new only if this is the put that makes it. -/
theorem mem_objects_of_effect (h : G.Effect (store P) p r q s x s') (hkey : key ∈ s'.db.objects) :
    key ∈ s.db.objects ∨ q = .put_object key := by
  cases h with
  | fail _ => exact .inl hkey
  | run _ hrun =>
    by_cases hq : q.onBucket
    · cases q with
      | generate_key =>
        simp only [store, Stmt.run] at hrun
        split at hrun <;> cases hrun
        exact .inl hkey
      | put_object key' =>
        cases hrun
        rcases List.mem_cons.mp hkey with rfl | hkey
        · exact .inr rfl
        · exact .inl hkey
      | delete_object key' =>
        cases hrun
        obtain ⟨m, hm, rfl⟩ := List.mem_map.mp hkey
        exact .inl (List.mem_map_of_mem (List.mem_of_mem_filter hm))
      | _ => exact hq.elim
    · rw [Shared.push_db, (Stmt.bucket_eq hq hrun).1] at hkey
      exact .inl hkey

/-- The logic of the ledger, in any regime: a key that is known and whose object is gone will
never have an object again. The rely condition is the same for all processes; what is known to one
of them only, such as the key it holds, is in the log under its own number and is not touched by
the others. -/
def ledgerLogic (P : Platform) (db₀ : Database) (G : Regime) : Logic G (store P) where
  inv := LedgerInv db₀
  rely _ s s' := ∀ key, Known db₀ key s.log →
    Known db₀ key s'.log ∧ (key ∉ s.db.objects → key ∉ s'.db.objects)
  pre p _ q s := LedgerPre p s q
  rely_refl _ _ _ hkey := ⟨hkey, id⟩
  rely_trans h h' key hkey :=
    ⟨(h' key (h key hkey).1).1, fun hgone => (h' key (h key hkey).1).2 ((h key hkey).2 hgone)⟩
  sound hs hpre h := by
    refine ⟨hs.effect hpre h, fun _ _ key hkey => ⟨hkey.mono fun _ => h.mem, fun hgone hnew => ?_⟩⟩
    rcases mem_objects_of_effect h hnew with hold | rfl
    · exact hgone hold
    · exact (hs.held _ key hpre).2 hkey
  stop_sound _ hs := ⟨⟨hs.issued_keys, hs.held, hs.holder, hs.row, hs.listed⟩,
    fun _ _ _ hkey => ⟨hkey, id⟩⟩
  pass_sound hs := ⟨⟨hs.issued_keys, hs.held, hs.holder, hs.row, hs.listed⟩,
    fun _ _ hkey => ⟨hkey, id⟩⟩

end Keys

/-! ### The scripts -/

/-- The requests around uploads. -/
def Request.handlesUploads : Request → Prop
  | upload _ _ _ _ _ | submit _ _ _ _ | delete_submission _ _ _ | delete_form _ _ _
  | delete_organization _ _ | reap_abandoned_uploads => True
  | _ => False

instance : DecidablePred Request.handlesUploads := fun r => by
  delta Request.handlesUploads
  split <;> infer_instance

/-- Statements that may be executed at any time, and put no object. -/
def LedgerFree (q : Stmt) : Prop := (∀ p s, LedgerPre p s q) ∧ ∀ key, q ≠ .put_object key

section Scripts

variable {P : Platform} {d : Deployment} {db₀ : Database} {G : Regime} {p : ℕ} {r : Request}
  {q : Stmt} {x : Except Failure q.Reply} {s s' : State} {key : String} {ε α : Type}

/-- `p` has no object to deal with. -/
def NonePending (p : ℕ) (s : State) : Prop := ∀ key, ¬ Pending p key s.log

theorem pending_of_others (h : Others p s s') : Pending p key s'.log ↔ Pending p key s.log :=
  h.since_iff (fun _ => pid_of_putsObject) fun _ => pid_of_settlesObject

theorem keyHeld_of_others (h : Others p s s') : KeyHeld p key s'.log ↔ KeyHeld p key s.log :=
  h.since_iff (fun _ => pid_of_generatesKey) fun _ => pid_of_putsObject

theorem NonePending.of_others (hs : NonePending p s) (h : Others p s s') : NonePending p s' :=
  fun key hkey => hs key ((pending_of_others h).mp hkey)

theorem putsObject_iff {p' : ℕ} {db : Database} :
    putsObject p' key ⟨p, r, db, q, x⟩ → p = p' ∧ q = .put_object key := by
  intro h
  unfold putsObject at h
  split at h
  · next heq =>
    cases heq
    exact ⟨h.1, by rw [h.2]⟩
  · exact h.elim

/-- Only a put makes an object pending. -/
theorem pending_of_effect (h : G.Effect (store P) p r q s x s') (hq : q ≠ .put_object key)
    (hkey : Pending p key s'.log) : Pending p key s.log := by
  rw [h.log_eq] at hkey
  rcases hkey with hput | ⟨-, hkey⟩
  · exact absurd (putsObject_iff hput).2 hq
  · exact hkey

theorem NonePending.effect (hs : NonePending p s) (h : G.Effect (store P) p r q s x s')
    (hq : ∀ key, q ≠ .put_object key) : NonePending p s' :=
  fun key hkey => hs key (pending_of_effect h (hq key) hkey)

theorem wp_of_ledgerFree {x : Code ε α} (hx : x.Issues LedgerFree) (hs : NonePending p s) :
    (ledgerLogic P db₀ G).wp p r x (fun _ => NonePending p) s :=
  Logic.wp_of_does LedgerFree (fun _ _ => True) (NonePending p) (fun _ => True)
    (fun hK he => hK.of_others he.others) (fun hq _ _ => hq.1 _ _)
    (fun hq _ hK hx _ => ⟨trivial, hK.effect hx hq.2⟩) (fun _ hK => hK) hx.does hs

/-- A statement that is free, in the course of a script. -/
theorem wp_ledgerFree_bind [Raises Failure ε] (hq : LedgerFree q) {f : q.Reply → Code ε α}
    (hs : NonePending p s)
    (hok : ∀ a s', LedgerInv db₀ s' → NonePending p s' →
      (ledgerLogic P db₀ G).wp p r (f a) (fun _ => NonePending p) s') :
    (ledgerLogic P db₀ G).wp p r (ask q >>= f) (fun _ => NonePending p) s := by
  refine Logic.wp_query_bind fun s₁ he =>
    ⟨hq.1 _ _, fun a s₂ hx hs₂ => ?_, fun e s₂ hx _ s₃ he₃ => ?_⟩
  · exact hok a s₂ hs₂ ((hs.of_others he.others).effect hx hq.2)
  · exact ((hs.of_others he.others).effect hx hq.2).of_others he₃.others

/-! #### Requests that put nothing -/

theorem load_published_free (public_id : String) :
    (FormService.load_published public_id).Issues LedgerFree :=
  FormService.load_published_issues ⟨fun _ _ => trivial, nofun⟩

theorem organization_access_free (organization_id user_id : Uuid) :
    (OrganizationService.access organization_id user_id).Issues LedgerFree :=
  OrganizationService.access_issues ⟨fun _ _ => trivial, nofun⟩

theorem manager_access_free (organization_id actor_id : Uuid) :
    (FormService.manager_access organization_id actor_id).Issues LedgerFree :=
  FormService.manager_access_issues ⟨fun _ _ => trivial, nofun⟩

theorem submit_free (public_id : String) (payload : Map) (client : ClientInfo)
    (referer : Option String) :
    (FormService.submit d public_id payload client referer).Issues LedgerFree := by
  have hinsert : ∀ n, (FormService.insert_submission n).Issues LedgerFree := by
    refine fun n => transaction_issues ⟨fun _ _ => trivial, nofun⟩ (fun now => ?_)
      ⟨fun _ _ => trivial, nofun⟩
    refine (Script.issues_query ⟨fun _ _ => trivial, nofun⟩).bind fun (row, event) => ?_
    exact (Script.issues_query ⟨fun _ _ => trivial, nofun⟩).bind fun _ => trivial
  have hclaim : ∀ n answers, (FormService.insert_claiming_files n answers).Issues LedgerFree := by
    refine fun n answers => transaction_issues ⟨fun _ _ => trivial, nofun⟩ (fun now => ?_)
      ⟨fun _ _ => trivial, nofun⟩
    refine (Script.issues_query ⟨fun _ _ => trivial, nofun⟩).bind fun recorded => ?_
    cases check_file_references recorded answers with
    | error e => trivial
    | ok metadata =>
      refine (Script.issues_query ⟨fun _ _ => trivial, nofun⟩).bind fun (row, event) => ?_
      refine (Script.issues_query ⟨fun _ _ => trivial, nofun⟩).bind fun claimed => ?_
      split
      · trivial
      · exact (Script.issues_query ⟨fun _ _ => trivial, nofun⟩).bind fun _ => trivial
  refine (load_published_free public_id).bind fun form => ?_
  refine (Script.issues_query ⟨fun _ _ => trivial, nofun⟩).bind fun allowed => ?_
  split
  · trivial
  · split
    · trivial
    · dsimp only
      split
      · exact (hinsert _).bind fun _ => trivial
      · exact (hclaim _ _).bind fun _ => trivial

theorem delete_submission_ledgerFree (organization_id submission_id actor_id : Uuid) :
    (FormService.delete_submission organization_id submission_id actor_id).Issues LedgerFree := by
  refine (manager_access_free organization_id actor_id).bind fun _ =>
    (Script.issues_query ⟨fun _ _ => trivial, nofun⟩).bind fun found => ?_
  split <;> trivial

theorem delete_form_free (organization_id form_id actor_id : Uuid) :
    (FormService.delete organization_id form_id actor_id).Issues LedgerFree := by
  refine (manager_access_free organization_id actor_id).bind fun _ => ?_
  refine Script.Issues.bind ((Script.issues_query ⟨fun _ _ => trivial, nofun⟩).bind fun found => ?_)
    fun form => (Script.issues_query ⟨fun _ _ => trivial, nofun⟩).bind fun found => ?_
  · cases found <;> trivial
  · split <;> trivial

theorem delete_organization_free (organization_id actor_id : Uuid) :
    (OrganizationService.delete organization_id actor_id).Issues LedgerFree := by
  refine (organization_access_free organization_id actor_id).bind fun standing => ?_
  refine Script.Issues.bind ?_ fun _ =>
    (Script.issues_query ⟨fun _ _ => trivial, nofun⟩).bind fun found => ?_
  · unfold OrganizationService.require_owner
    split <;> trivial
  · split <;> trivial

/-! #### An upload

The key is held from its generation to the put, and the object is pending from the put to the row.
At every exit in between, the upload has either not put anything or asks for the deletion of what
it has put. -/

/-- Once an object is put, its row is written or its deletion is asked for. -/
theorem wp_record_upload {upload : NewFileUpload} (hput : WasPut upload.object_key s.log)
    (hpending : ∀ key, Pending p key s.log → key = upload.object_key) :
    (ledgerLogic P db₀ G).wp p r (FormService.record_upload upload) (fun _ => NonePending p) s := by
  refine Logic.wp_attempt_bind fun s₁ he => ⟨?_, fun x s₂ hx hs₂ => ?_⟩
  · obtain ⟨e, hmem, p', hp'⟩ := hput
    exact ⟨e, he.others.mem hmem, p', hp'⟩
  have hpending₂ : ∀ key, Pending p key s₂.log → key = upload.object_key := fun key hkey =>
    hpending key ((pending_of_others he.others).mp (pending_of_effect hx nofun hkey))
  cases x with
  | ok row =>
    have hnone : NonePending p s₂ := by
      intro key hkey
      obtain rfl := hpending₂ key hkey
      rw [hx.log_eq] at hkey
      exact (hkey.resolve_left not_false).1 ⟨rfl, rfl⟩
    exact fun s₃ he₃ => hnone.of_others he₃.others
  | error e =>
    refine Logic.wp_attempt_bind fun s₃ he₃ => ⟨trivial, fun y s₄ hy hs₄ => ?_⟩
    have hnone : NonePending p s₄ := by
      intro key hkey
      obtain rfl := hpending₂ key
        ((pending_of_others he₃.others).mp (pending_of_effect hy nofun hkey))
      rw [hy.log_eq] at hkey
      exact (hkey.resolve_left not_false).1 ⟨rfl, rfl⟩
    exact fun s₅ he₅ => hnone.of_others he₅.others

/-- While a body is streamed, its key is held. -/
theorem wp_stream_upload (hnone : NonePending p s) (hheld : KeyHeld p key s.log)
    (declared : Option String) (limit : ℕ) (body : List Chunk) (st : StreamState) :
    (ledgerLogic P db₀ G).wp p r (stream_upload key declared limit body st)
      (fun _ s' => NonePending p s' ∧ KeyHeld p key s'.log) s := by
  have hissues := FormService.stream_upload_issues
      (P := fun q => ∃ bytes, q = .write_part key bytes)
    (fun bytes => ⟨bytes, rfl⟩) declared limit body st
  refine Logic.wp_of_does _ (fun _ _ => True) (fun s => NonePending p s ∧ KeyHeld p key s.log)
    (fun _ => True) (fun hK he => ?_) ?_ ?_ (fun _ hK => hK) hissues.does ⟨hnone, hheld⟩
  · exact ⟨hK.1.of_others he.others, (keyHeld_of_others he.others).mpr hK.2⟩
  · rintro q s ⟨bytes, rfl⟩ - ⟨-, hheld⟩
    exact hheld
  · rintro q s x s' ⟨bytes, rfl⟩ - ⟨hnone, hheld⟩ hx -
    refine ⟨trivial, hnone.effect hx nofun, ?_⟩
    rw [hx.log_eq]
    exact .inr ⟨not_false, hheld⟩

/-- A write that is given up puts nothing. -/
theorem wp_give_up {Φ : Except FormError Unit → State → Prop} {e : Failure}
    (hnone : NonePending p s) (hheld : KeyHeld p key s.log)
    (hΦ : ∀ e s', NonePending p s' → Φ (.error e) s') :
    (ledgerLogic P db₀ G).wp p r (UploadWriter.give_up key e) Φ s := by
  have hgiven_up : ∀ {s₁ s₂ s₃ : State} {x : Except Failure Unit},
      (ledgerLogic P db₀ G).Env p s s₁ → G.Effect (store P) p r (.abort_upload key) s₁ x s₂ →
      (ledgerLogic P db₀ G).Env p s₂ s₃ → NonePending p s₃ := fun he₁ hx₂ he₃ =>
    ((hnone.of_others he₁.others).effect hx₂ nofun).of_others he₃.others
  exact Logic.wp_query_bind fun s₁ he₁ => ⟨(keyHeld_of_others he₁.others).mpr hheld,
    fun _ s₂ hx₂ _ s₃ he₃ => hΦ _ _ (hgiven_up he₁ hx₂ he₃),
    fun _ s₂ hx₂ _ s₃ he₃ => hΦ _ _ (hgiven_up he₁ hx₂ he₃)⟩

/-- Completing the write puts the object, or fails. -/
theorem wp_finish (hnone : NonePending p s) (hheld : KeyHeld p key s.log) :
    (ledgerLogic P db₀ G).wp p r (UploadWriter.finish key d.platform)
      (fun y s' => match y with
        | .ok _ => WasPut key s'.log ∧ ∀ key', Pending p key' s'.log → key' = key
        | .error _ => NonePending p s') s := by
  refine Logic.wp_attempt_bind fun s₁ he₁ => ⟨(keyHeld_of_others he₁.others).mpr hheld,
    fun flushed s₂ hx₂ hs₂ => ?_⟩
  have hnone₂ : NonePending p s₂ := (hnone.of_others he₁.others).effect hx₂ nofun
  have hheld₂ : KeyHeld p key s₂.log := by
    rw [hx₂.log_eq]
    exact .inr ⟨not_false, (keyHeld_of_others he₁.others).mpr hheld⟩
  cases flushed with
  | error e =>
    dsimp only
    split
    · exact wp_give_up hnone₂ hheld₂ fun _ _ hnone' => hnone'
    · exact fun s₃ he₃ => hnone₂.of_others he₃.others
  | ok _ =>
    refine Logic.wp_attempt_bind fun s₃ he₃ => ⟨(keyHeld_of_others he₃.others).mpr hheld₂,
      fun completed s₄ hx₄ hs₄ => ?_⟩
    cases completed with
    | ok _ =>
      refine fun s₅ he₅ => ⟨⟨_, he₅.others.mem hx₄.mem_self, p, rfl, rfl⟩, fun key' hkey' => ?_⟩
      rw [pending_of_others he₅.others, hx₄.log_eq] at hkey'
      rcases hkey' with ⟨-, heq⟩ | ⟨-, hkey'⟩
      · exact heq.symm
      · exact absurd hkey' (hnone₂.of_others he₃.others key')
    | error e =>
      refine wp_give_up (fun key' hkey' => ?_) ?_ fun _ _ hnone' => hnone'
      · rw [hx₄.log_eq] at hkey'
        exact hnone₂.of_others he₃.others key' (hkey'.resolve_left not_false).2
      · rw [hx₄.log_eq]
        exact .inr ⟨not_false, (keyHeld_of_others he₃.others).mpr hheld₂⟩

theorem wp_upload (hs : LedgerInv db₀ s) (hnone : NonePending p s) (public_id field_key : String)
    (filename declared_type : Option String) (body : List Chunk) :
    (ledgerLogic P db₀ G).wp p r
      (FormService.upload d public_id field_key filename declared_type body)
      (fun _ => NonePending p) s := by
  unfold FormService.upload
  split
  · exact fun s₁ he => hnone.of_others he.others
  refine Logic.wp_bind hs (wp_of_ledgerFree (load_published_free public_id) hnone)
    (fun form s₁ hs₁ hnone₁ => ?_) fun _ _ _ h => h
  refine wp_ledgerFree_bind (q := .check_key form.id) ⟨fun _ _ => trivial, nofun⟩ hnone₁
    fun allowed s₂ hs₂ hnone₂ => ?_
  split
  · exact fun s₃ he => hnone₂.of_others he.others
  cases FormService.upload_target form field_key declared_type with
  | error e => exact fun s₃ he => hnone₂.of_others he.others
  | ok target =>
    obtain ⟨field, declared⟩ := target
    -- The key is the upload's own from here to the put.
    refine Logic.wp_query_bind fun s₃ he₃ => ⟨trivial, fun key s₄ hx₄ hs₄ => ?_,
      fun e s₄ hx₄ _ s₅ he₅ => ?_⟩
    swap
    · exact ((hnone₂.of_others he₃.others).effect hx₄ nofun).of_others he₅.others
    have hnone₄ : NonePending p s₄ := (hnone₂.of_others he₃.others).effect hx₄ nofun
    have hheld₄ : KeyHeld p key s₄.log := by
      rw [hx₄.log_eq]
      exact .inl ⟨rfl, rfl⟩
    refine Logic.wp_query_bind fun s₅ he₅ => ⟨(keyHeld_of_others he₅.others).mpr hheld₄,
      fun _ s₆ hx₆ hs₆ => ?_, fun e s₆ hx₆ _ s₇ he₇ => ?_⟩
    swap
    · exact ((hnone₄.of_others he₅.others).effect hx₆ nofun).of_others he₇.others
    have hnone₆ : NonePending p s₆ := (hnone₄.of_others he₅.others).effect hx₆ nofun
    have hheld₆ : KeyHeld p key s₆.log := by
      rw [hx₆.log_eq]
      exact .inr ⟨not_false, (keyHeld_of_others he₅.others).mpr hheld₄⟩
    refine Logic.wp_bind (Ψ := fun _ s' => NonePending p s' ∧ KeyHeld p key s'.log) hs₆
      (Logic.wp_result (wp_stream_upload hnone₆ hheld₆ _ _ _ _))
      (fun y s₇ hs₇ ⟨hnone₇, hheld₇⟩ => ?_) fun _ _ _ h => h.1
    cases y with
    | error e =>
      refine Logic.wp_attempt_bind fun s₈ he₈ => ⟨(keyHeld_of_others he₈.others).mpr hheld₇,
        fun y s₉ hy _ s₁₀ he₁₀ => ?_⟩
      exact ((hnone₇.of_others he₈.others).effect hy nofun).of_others he₁₀.others
    | ok size =>
      refine Logic.wp_bind hs₇ (wp_finish hnone₇ hheld₇) (fun _ s₈ hs₈ ⟨hput, hpending⟩ => ?_)
        fun _ _ _ h => h
      exact wp_record_upload hput hpending

/-! #### A reaper pass

The reaper works through a list. For each entry it deletes the object first and forgets the row
only if that went well, so the precondition of forgetting, that the object is gone, holds at that
moment; it lasts because an object is never put under a known key. -/

/-- The object of a listed row is deleted before the row is forgotten. -/
theorem wp_reap {u : FileUploadRecord} (hlisted : WasListed u s.log) (hnone : NonePending p s) :
    (ledgerLogic P db₀ G).wp p r (FormService.reap u) (fun _ => NonePending p) s := by
  refine Logic.wp_attempt_bind fun s₁ he => ⟨trivial, fun x s₂ hx hs₂ => ?_⟩
  have hnone₂ : NonePending p s₂ := (hnone.of_others he.others).effect hx nofun
  cases x with
  | error e => exact fun s₃ he₃ => hnone₂.of_others he₃.others
  | ok _ =>
    have hlisted₂ : WasListed u s₂.log := by
      obtain ⟨p', r', db, t, n, us, hmem, hu⟩ := hlisted
      exact ⟨p', r', db, t, n, us, hx.mem (he.others.mem hmem), hu⟩
    have hgone : u.object_key ∉ s₂.db.objects := by
      obtain ⟨-, c, db, hrun, rfl⟩ := hx.of_ok
      cases hrun
      simp [Database.objects]
    refine Logic.wp_query fun s₃ he₃ => ⟨⟨u, ?_, rfl, ?_⟩, fun _ s₄ hx₄ _ s₅ he₅ => ?_,
      fun _ s₄ hx₄ _ s₅ he₅ => ?_⟩
    · obtain ⟨p', r', db, t, n, us, hmem, hu⟩ := hlisted₂
      exact ⟨p', r', db, t, n, us, he₃.others.mem hmem, hu⟩
    · -- A known key does not come back.
      exact (he₃.rely u.object_key (hs₂.listed u hlisted₂).1).2 hgone
    · exact ((hnone₂.of_others he₃.others).effect hx₄ nofun).of_others he₅.others
    · exact ((hnone₂.of_others he₃.others).effect hx₄ nofun).of_others he₅.others

theorem wp_reap_abandoned_uploads (hnone : NonePending p s) :
    (ledgerLogic P db₀ G).wp p r (FormService.reap_abandoned_uploads d)
      (fun _ => NonePending p) s := by
  unfold FormService.reap_abandoned_uploads
  split
  · exact fun s₁ he => hnone.of_others he.others
  refine wp_ledgerFree_bind (q := .now) ⟨fun _ _ => trivial, nofun⟩ hnone
    fun now s₁ hs₁ hnone₁ => ?_
  refine Logic.wp_query_bind fun s₂ he₂ => ⟨trivial, fun us s₃ hx₃ hs₃ => ?_,
    fun e s₃ hx₃ _ s₄ he₄ => ?_⟩
  swap
  · exact ((hnone₁.of_others he₂.others).effect hx₃ nofun).of_others he₄.others
  refine Logic.wp_forEach (fun rest s' => NonePending p s' ∧ ∀ u ∈ rest, WasListed u s'.log) ?_
    (fun _ _ hJ he => hJ.1.of_others he.others) us s₃ hs₃
    ⟨(hnone₁.of_others he₂.others).effect hx₃ nofun, fun u hu =>
      ⟨_, _, _, _, _, _, hx₃.mem_self, hu⟩⟩
  rintro u rest s₄ hs₄ ⟨hnone₄, hlisted⟩
  refine Logic.wp_mono (Logic.wp_grows (wp_reap (hlisted u List.mem_cons_self) hnone₄)
    fun _ hmem => hmem) ?_
  rintro y s₅ - ⟨hnone₅, hlog⟩
  cases y with
  | error _ => exact hnone₅
  | ok _ =>
    refine ⟨hnone₅, fun u' hu' => ?_⟩
    obtain ⟨p', r', db, t, n, us', hmem, hin⟩ := hlisted u' (List.mem_cons_of_mem _ hu')
    exact ⟨p', r', db, t, n, us', hlog _ hmem, hin⟩

/-- **The requests around uploads keep to the discipline**, and leave no object pending. -/
theorem wp_handlesUploads (hr : r.handlesUploads) (hs : LedgerInv db₀ s)
    (hfresh : ∀ e ∈ s.log, e.pid ≠ p) :
    (ledgerLogic P db₀ G).wp p r (Request.code d r) (fun _ => NonePending p) s := by
  have hnone : NonePending p s := by
    intro key hkey
    obtain ⟨e, he, hput⟩ := hkey.exists_mem
    exact hfresh e he (pid_of_putsObject hput)
  cases r with
  | upload public_id field_key filename declared_type body =>
    exact wp_upload hs hnone public_id field_key filename declared_type body
  | submit public_id payload client referer =>
    exact wp_of_ledgerFree (submit_free public_id payload client referer) hnone
  | delete_submission organization_id submission_id actor_id =>
    exact wp_of_ledgerFree (delete_submission_ledgerFree organization_id submission_id actor_id)
      hnone
  | delete_form organization_id form_id actor_id =>
    exact wp_of_ledgerFree (delete_form_free organization_id form_id actor_id) hnone
  | delete_organization organization_id actor_id =>
    exact wp_of_ledgerFree (delete_organization_free organization_id actor_id) hnone
  | reap_abandoned_uploads => exact wp_reap_abandoned_uploads hnone
  | _ => exact hr.elim

/-- A database whose ledger names keys and identifiers that have been generated. -/
structure LedgerIssued (db : Database) : Prop where
  keys : ∀ u ∈ db.file_uploads.rows, u.object_key ∈ db.issued_keys
  ids : ∀ u ∈ db.file_uploads.rows, u.id ∈ db.issued

theorem LedgerInv.start {db : Database} (hdb : LedgerIssued db) :
    LedgerInv db (World.start db).shared where
  issued_keys := by
    rintro key (hkey | ⟨e, he, -⟩)
    · exact hkey
    · exact absurd he List.not_mem_nil
  held := fun _ _ h => absurd h since_nil
  holder := fun _ _ _ h => absurd h since_nil
  row := fun u hu => ⟨.inl (hdb.keys u hu), hdb.ids u hu⟩
  listed := fun _ ⟨_, _, _, _, _, _, he, _⟩ => absurd he List.not_mem_nil

end Scripts

end SubmitSnap
