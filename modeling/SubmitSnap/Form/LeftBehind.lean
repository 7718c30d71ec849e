import SubmitSnap.Form.UploadLedger

/-!
# What a failed upload leaves behind

An upload that fails has one of three exits to take, and each undoes what has been done so far:
while the body is streamed the write is aborted, a completion that fails aborts it by itself, and
once the object is there it is deleted again if its row cannot be written. One failure has no exit
of its own. When the last parts do not arrive, the code aborts nothing and leaves it to the client
of the store, which may or may not give the write up by itself: releases of the library differ.
The theorem is about both kinds.

The keys make the rest work: what is under a key only changes by the hand of the upload that was
given it, so an upload knows what it leaves behind whatever the others do.

## The argument

`Uploading` says where an upload stands: whether its write is open, whether there may be an
object, and whether a flush has failed. Each statement of the upload moves it from one such
description to the next (`Uploading.fail`, `Uploading.succeed`), and the others do not move it at
all. The theorem is then a walk through the script: at each exit the description says whether
anything is left.

The equivalence holds at every exit and not only on the whole, since a failed flush is noted in
the log. If none has failed, the exits clean up; if one has, the write is open in the end exactly
if the client does not abort it. That undoing calls succeed is part of the regime: one that fails
leaves something behind by its nature.

## Main definitions

* `GivenKey` — an upload has been given the key.
* `NothingLeft` — no row, no object and no unfinished write under a key.
* `keyLogic` — what is under a key is up to whoever was given it.

## Main results

* `nothingLeft_iff` — a failed upload leaves nothing behind unless a flush has failed and the client
  does not give the write up by itself.
* `not_nothingLeft` — a flush that fails, with such a client.
-/

namespace SubmitSnap

open Interleave
open Interleave.Script (ret when mapError result forEach)

/-- `p` has been given `key`. -/
def GivenKey (p : ℕ) (key : String) (log : List Event) : Prop := ∃ e ∈ log, generatesKey p key e

/-- The parts `p` has written do not all arrive. -/
def failsFlush (p : ℕ) : Event → Prop
  | ⟨p', _, _, .flush_parts _, .error _⟩ => p' = p
  | _ => False

/-- A flush of `p` has failed. -/
def FlushFailed (p : ℕ) (log : List Event) : Prop := ∃ e ∈ log, failsFlush p e

/-- There is nothing under the key: no row of the ledger, no object, no unfinished write. -/
structure NothingLeft (key : String) (db : Database) : Prop where
  row : ∀ u ∈ db.file_uploads.rows, u.object_key ≠ key
  object : key ∉ db.objects
  multipart : key ∉ db.multiparts.map (·.1)

/-- Calls that undo what an upload has done. -/
def Stmt.undoes : Stmt → Prop
  | .abort_upload _ | .delete_object _ => True
  | _ => False

/-- The runs in which everything can happen to the requests around uploads, and every call can fail
but those that undo something. -/
abbrev undoesSucceed : Regime :=
  { Regime.free Request.handlesUploads with fails := fun q => ¬ q.undoes }

/-- What is under the keys that have been generated is all there is. -/
def KeysIssued (db : Database) : Prop := ∀ key, key ∉ db.issued_keys → NothingLeft key db

/-! ### Statements and keys

A statement is on a key if it puts something under it or takes a write away. Any other statement
may remove what is under the key, or leave it, but adds nothing. -/

/-- What is under a key grows no more. -/
structure KeepsKey (key : String) (db db' : Database) : Prop where
  row : (∀ u ∈ db.file_uploads.rows, u.object_key ≠ key) →
    ∀ u ∈ db'.file_uploads.rows, u.object_key ≠ key
  object : key ∉ db.objects → key ∉ db'.objects
  multipart : key ∈ db'.multiparts.map (·.1) ↔ key ∈ db.multiparts.map (·.1)

/-- Statements that put something under a key, or take a write away. -/
def Stmt.onKey (key : String) : Stmt → Prop
  | .begin_upload key' | .write_part key' _ | .put_object key' | .abort_upload key' => key' = key
  | .uploads (.insert upload) => upload.object_key = key
  | _ => False

section Keys

variable {P : Platform} {p p' : ℕ} {r : Request} {q : Stmt} {x : Except Failure q.Reply}
  {c : Choice}
  {s s' : State} {db db' : Database} {key key' : String} {e : Event} {log : List Event} {G : Regime}

theorem KeepsKey.trans {db'' : Database} (h : KeepsKey key db db') (h' : KeepsKey key db' db'') :
    KeepsKey key db db'' :=
  ⟨h'.row ∘ h.row, h'.object ∘ h.object, h'.multipart.trans h.multipart⟩

theorem NothingLeft.keep (h : NothingLeft key db) (hk : KeepsKey key db db') :
    NothingLeft key db' :=
  ⟨hk.row h.row, hk.object h.object, fun hm => h.multipart (hk.multipart.mp hm)⟩

/-- Writing a part opens and closes nothing. -/
theorem keys_write (multiparts : List (String × List ℕ)) (key : String) (bytes : List ℕ) :
    (multiparts.map fun m => if m.1 == key then (key, m.2 ++ bytes) else m).map (·.1) =
      multiparts.map (·.1) := by
  rw [List.map_map]
  refine List.map_congr_left fun m _ => ?_
  by_cases h : m.1 = key
  · simp [h]
  · simp [h]

/-- The end of a write leaves the others open. -/
theorem mem_keys_filter {multiparts : List (String × List ℕ)} (hne : key ≠ key') :
    key ∈ (multiparts.filter (·.1 != key')).map (·.1) ↔ key ∈ multiparts.map (·.1) := by
  simp only [List.mem_map, List.mem_filter, bne_iff_ne]
  constructor
  · rintro ⟨m, ⟨hm, -⟩, rfl⟩
    exact ⟨m, hm, rfl⟩
  · rintro ⟨m, hm, rfl⟩
    exact ⟨m, ⟨hm, hne⟩, rfl⟩

theorem not_mem_keys_filter (multiparts : List (String × List ℕ)) (key : String) :
    key ∉ (multiparts.filter (·.1 != key)).map (·.1) := by
  simp

/-- **What is not its business** a statement leaves as it is. -/
theorem Stmt.keepsKey (h : q.run P p c db = some (db', x)) (hq : ¬ q.onKey key) :
    KeepsKey key db db' := by
  refine ⟨fun hrow u' hu' heq => ?_, fun hobject hnew => ?_, ?_⟩
  · rcases Stmt.upload_origin h hu' with ⟨u, hu, -, hkey⟩ | ⟨upload, rfl, hkey, -⟩
    · exact hrow u hu (hkey.trans heq)
    · exact hq (hkey.symm.trans heq)
  · by_cases hbucket : q.onBucket
    · cases q with
      | generate_key =>
        simp only [Stmt.run] at h
        split at h <;> cases h
        exact hobject hnew
      | put_object key' =>
        cases h
        rcases List.mem_cons.mp hnew with rfl | hold
        · exact hq rfl
        · exact hobject hold
      | delete_object key' =>
        cases h
        obtain ⟨m, hm, rfl⟩ := List.mem_map.mp hnew
        exact hobject (List.mem_map_of_mem (List.mem_of_mem_filter hm))
      | _ => exact hbucket.elim
    · exact hobject ((Stmt.bucket_eq hbucket h).1 ▸ hnew)
  · cases q with
    | begin_upload key' =>
      cases h
      have hne : key ≠ key' := fun heq => hq heq.symm
      simp [hne]
    | write_part key' bytes =>
      cases h
      rw [keys_write]
    | put_object key' =>
      cases h
      exact mem_keys_filter fun heq => hq heq.symm
    | abort_upload key' =>
      cases h
      exact mem_keys_filter fun heq => hq heq.symm
    | _ => rw [Stmt.footprint .multiparts rfl h]

/-! ### Whose key it is -/

theorem GivenKey.mono {log' : List Event} (h : GivenKey p key log) (hlog : ∀ e ∈ log, e ∈ log') :
    GivenKey p key log' := by
  obtain ⟨e, he, hgives⟩ := h
  exact ⟨e, hlog e he, hgives⟩

theorem givenKey_cons : GivenKey p key (e :: log) ↔ generatesKey p key e ∨ GivenKey p key log := by
  simp [GivenKey]

theorem flushFailed_cons : FlushFailed p (e :: log) ↔ failsFlush p e ∨ FlushFailed p log := by
  simp [FlushFailed]

/-- A key is given once, to one process, and what has not been given yet has nothing under it.
Without the first part an upload might find something under the key it has just drawn. -/
structure KeysOwned (s : State) : Prop where
  keys : KeysIssued s.db
  issued : ∀ p key, GivenKey p key s.log → key ∈ s.db.issued_keys
  owner : ∀ p p' key, GivenKey p key s.log → GivenKey p' key s.log → p = p'

/-- A statement puts something under a key only for whoever was given it. -/
def KeyPre (p : ℕ) (s : State) (q : Stmt) : Prop := ∀ key, q.onKey key → GivenKey p key s.log

/-- The event in which a key is given is the one that makes it. -/
theorem Stmt.generates (h : q.run P p c db = some (db', x)) {db₀ : Database}
    (hgives : generatesKey p' key ⟨p, r, db₀, q, x⟩) :
    p = p' ∧ key ∉ db.issued_keys ∧ db'.issued_keys = key :: db.issued_keys := by
  unfold generatesKey at hgives
  split at hgives
  · next heq =>
    cases heq
    obtain ⟨rfl, rfl⟩ := hgives
    simp only [Stmt.run] at h
    split at h
    · cases h
    · next hnew =>
      cases h
      exact ⟨rfl, hnew, rfl⟩
  · exact hgives.elim

theorem Stmt.issued_keys_mono (h : q.run P p c db = some (db', x)) (hkey : key ∈ db.issued_keys) :
    key ∈ db'.issued_keys := by
  by_cases hbucket : q.onBucket
  · cases q with
    | generate_key =>
      simp only [Stmt.run] at h
      split at h <;> cases h
      exact List.mem_cons_of_mem _ hkey
    | put_object _ | delete_object _ =>
      cases h
      exact hkey
    | _ => exact hbucket.elim
  · rw [(Stmt.bucket_eq hbucket h).2]
    exact hkey

/-- Nothing comes under a key by anything but a statement. -/
theorem KeysOwned.of_keeps (hs : KeysOwned s) (hkeeps : ∀ key, KeepsKey key s.db db')
    (hissued : db'.issued_keys = s.db.issued_keys) : KeysOwned ⟨db', s.log⟩ where
  keys := fun key hkey => (hs.keys key (hissued ▸ hkey)).keep (hkeeps key)
  issued := fun p key hgiven => hissued ▸ hs.issued p key hgiven
  owner := hs.owner
/-- Every statement keeps it, if keys are only used by whoever they were given to. A key that is
given now was not issued before, so it has no other owner and there is nothing under it; and
nothing comes under a key that has not been given to anybody. -/
theorem KeysOwned.effect (hs : KeysOwned s) (hpre : KeyPre p s q)
    (h : G.Effect (store P) p r q s x s') : KeysOwned s' := by
  cases h with
  | fail _ =>
    have hgiven : ∀ {p' key e}, GivenKey p' key (⟨p, r, s.db, q, .error e⟩ :: s.log) →
        GivenKey p' key s.log :=
      fun hg => (givenKey_cons.mp hg).resolve_left (idle_of_error.1 _ _)
    have hs' : KeysOwned ⟨s.db.unlock p, s.log⟩ := hs.of_keeps (fun _ => ⟨id, id, .rfl⟩) rfl
    exact ⟨hs'.keys, fun p' key hg => hs'.issued p' key (hgiven hg),
      fun p₁ p₂ key h₁ h₂ => hs'.owner p₁ p₂ key (hgiven h₁) (hgiven h₂)⟩
  | @run c db' x _ hrun =>
    refine ⟨fun key hkey => ?_, fun p' key hg => ?_, fun p₁ p₂ key h₁ h₂ => ?_⟩
    · have hnew : key ∉ s.db.issued_keys := fun hold => hkey (Stmt.issued_keys_mono hrun hold)
      exact (hs.keys key hnew).keep
        (Stmt.keepsKey hrun fun hon => hnew (hs.issued p key (hpre key hon)))
    · rcases givenKey_cons.mp hg with hgives | hold
      · rw [Shared.push_db, (Stmt.generates hrun hgives).2.2]
        exact List.mem_cons_self
      · exact Stmt.issued_keys_mono hrun (hs.issued p' key hold)
    · rcases givenKey_cons.mp h₁ with h₁ | h₁ <;> rcases givenKey_cons.mp h₂ with h₂ | h₂
      · exact (Stmt.generates hrun h₁).1.symm.trans (Stmt.generates hrun h₂).1
      · exact absurd (hs.issued p₂ key h₂) (Stmt.generates hrun h₁).2.1
      · exact absurd (hs.issued p₁ key h₁) (Stmt.generates hrun h₂).2.1
      · exact hs.owner p₁ p₂ key h₁ h₂

/-- What somebody else does keeps what is under a key of one's own. -/
theorem KeysOwned.keepsKey (hs : KeysOwned s) (hpre : KeyPre p s q)
    (h : G.Effect (store P) p r q s x s') (hne : p' ≠ p) (hgiven : GivenKey p' key s.log) :
    KeepsKey key s.db s'.db := by
  cases h with
  | fail _ => exact ⟨id, id, .rfl⟩
  | run _ hrun =>
    exact Stmt.keepsKey hrun fun hon => hne (hs.owner p' p key hgiven (hpre key hon))

/-- The logic of the keys, in any regime: others let what is under a key of one's own be. It does
not ask for anything to be there or not to be there; it only says who decides. -/
def keyLogic (P : Platform) (G : Regime) : Logic G (store P) where
  inv := KeysOwned
  rely p s s' := ∀ key, GivenKey p key s.log → GivenKey p key s'.log ∧ KeepsKey key s.db s'.db
  pre p _ q s := KeyPre p s q
  rely_refl _ _ _ hgiven := ⟨hgiven, id, id, .rfl⟩
  rely_trans h h' key hgiven := ⟨(h' key (h key hgiven).1).1,
    (h key hgiven).2.trans (h' key (h key hgiven).1).2⟩
  sound hs hpre h := ⟨hs.effect hpre h, fun _ hne _ hgiven =>
    ⟨hgiven.mono fun _ => h.mem, hs.keepsKey hpre h hne hgiven⟩⟩
  stop_sound _ hs :=
    ⟨hs.of_keeps (fun _ => ⟨id, id, .rfl⟩) rfl, fun _ _ _ hgiven => ⟨hgiven, id, id, .rfl⟩⟩
  pass_sound hs :=
    ⟨hs.of_keeps (fun _ => ⟨id, id, .rfl⟩) rfl, fun _ _ hgiven => ⟨hgiven, id, id, .rfl⟩⟩

end Keys

/-! ### An upload and its key -/

/-- Where an upload stands with the only key it has been given: whether its write is in progress,
whether there may be an object, and whether its flush has failed. No row names the key. -/
structure Uploading (p : ℕ) (key : String) (opened stored stranded : Prop) (s : State) : Prop where
  given : ∀ key', GivenKey p key' s.log ↔ key' = key
  row : ∀ u ∈ s.db.file_uploads.rows, u.object_key ≠ key
  object : key ∈ s.db.objects → stored
  multipart : key ∈ s.db.multiparts.map (·.1) ↔ opened
  flushed : FlushFailed p s.log ↔ stranded

/-- What is left behind is what a failed flush has left, with a client that does not clean up after
it. -/
def LeftByFlush (d : Deployment) (p : ℕ) (s : State) : Prop :=
  (∀ key, GivenKey p key s.log → NothingLeft key s.db) ↔
    d.platform.aborts_failed_flush = true ∨ ¬ FlushFailed p s.log

/-- `p` has not been given a key yet. -/
structure Keyless (p : ℕ) (s : State) : Prop where
  given : ∀ key, ¬ GivenKey p key s.log
  flushed : ¬ FlushFailed p s.log

section Scripts

variable {P : Platform} {d : Deployment} {G : Regime} {p : ℕ} {r : Request} {q : Stmt}
  {x : Except Failure q.Reply} {s s' : State} {key : String} {opened stored stranded : Prop}
  {ε α : Type}

theorem pid_of_failsFlush {e : Event} (h : failsFlush p e) : e.pid = p := by
  unfold failsFlush at h
  split at h
  · exact h
  · exact h.elim

theorem givenKey_of_others (h : Others p s s') : GivenKey p key s'.log ↔ GivenKey p key s.log := by
  refine ⟨?_, fun hgiven => hgiven.mono fun _ => h.mem⟩
  rintro ⟨e, he, hgives⟩
  exact ⟨e, (h.mem_iff (pid_of_generatesKey hgives)).mp he, hgives⟩

theorem flushFailed_of_others (h : Others p s s') :
    FlushFailed p s'.log ↔ FlushFailed p s.log := by
  constructor
  · rintro ⟨e, he, hfails⟩
    exact ⟨e, (h.mem_iff (pid_of_failsFlush hfails)).mp he, hfails⟩
  · rintro ⟨e, he, hfails⟩
    exact ⟨e, h.mem he, hfails⟩

theorem Keyless.env (hs : Keyless p s) (he : (keyLogic P G).Env p s s') : Keyless p s' :=
  ⟨fun key hgiven => hs.given key ((givenKey_of_others he.others).mp hgiven),
    fun hfailed => hs.flushed ((flushFailed_of_others he.others).mp hfailed)⟩

theorem Uploading.env (hs : Uploading p key opened stored stranded s)
    (he : (keyLogic P G).Env p s s') : Uploading p key opened stored stranded s' := by
  obtain ⟨-, hkeeps⟩ := he.rely key ((hs.given key).mpr rfl)
  refine ⟨fun key' => (givenKey_of_others he.others).trans (hs.given key'), hkeeps.row hs.row,
    fun hobject => ?_, hkeeps.multipart.trans hs.multipart,
    (flushFailed_of_others he.others).trans hs.flushed⟩
  by_contra hnot
  exact hkeeps.object (fun hold => hnot (hs.object hold)) hobject

theorem Keyless.leftByFlush (hs : Keyless p s) : LeftByFlush d p s :=
  ⟨fun _ => .inr hs.flushed, fun _ key hgiven => absurd hgiven (hs.given key)⟩

/-- Without an object, the write decides: it may only be open if its flush has failed and the client
has done nothing about it. -/
theorem Uploading.leftByFlush (hs : Uploading p key opened False stranded s)
    (h : opened ↔ stranded ∧ d.platform.aborts_failed_flush = false) : LeftByFlush d p s := by
  refine ⟨fun hnothing => ?_, fun hclean key' hgiven => ?_⟩
  · by_contra hnot
    obtain ⟨haborts, hfailed⟩ := not_or.mp hnot
    have hopened : opened :=
      h.mpr ⟨hs.flushed.mp (not_not.mp hfailed), Bool.eq_false_iff.mpr haborts⟩
    exact (hnothing key ((hs.given key).mpr rfl)).multipart (hs.multipart.mpr hopened)
  · obtain rfl := (hs.given key').mp hgiven
    refine ⟨hs.row, hs.object, fun hmem => ?_⟩
    obtain ⟨hstranded, haborts⟩ := h.mp (hs.multipart.mp hmem)
    rcases hclean with hyes | hflushed
    · rw [haborts] at hyes
      cases hyes
    · exact hflushed (hs.flushed.mpr hstranded)

/-- Neither an object nor a write, and no flush has failed. -/
theorem Uploading.leftByFlush_closed (hs : Uploading p key False False False s) :
    LeftByFlush d p s :=
  hs.leftByFlush (iff_of_false id fun h => h.1)

/-! #### What `p` itself does -/

/-- What neither gives a key nor is a failed flush leaves the record of both as it is. -/
theorem log_of_effect (h : G.Effect (store P) p r q s x s')
    (hgives : ∀ key, ¬ generatesKey p key ⟨p, r, s.db, q, x⟩)
    (hfails : ¬ failsFlush p ⟨p, r, s.db, q, x⟩) :
    (∀ key, GivenKey p key s'.log ↔ GivenKey p key s.log) ∧
      (FlushFailed p s'.log ↔ FlushFailed p s.log) := by
  rw [h.log_eq]
  refine ⟨fun key => ?_, ?_⟩
  · rw [givenKey_cons, or_iff_right (hgives key)]
  · rw [flushFailed_cons, or_iff_right hfails]

theorem Keyless.effect (hs : Keyless p s) (h : G.Effect (store P) p r q s x s')
    (hgives : ∀ key, ¬ generatesKey p key ⟨p, r, s.db, q, x⟩)
    (hfails : ¬ failsFlush p ⟨p, r, s.db, q, x⟩) : Keyless p s' := by
  obtain ⟨hgiven, hflushed⟩ := log_of_effect h hgives hfails
  exact ⟨fun key => mt (hgiven key).mp (hs.given key), mt hflushed.mp hs.flushed⟩

/-- There is nothing under a new key. -/
theorem Keyless.generate_key (hs : Keyless p s) (hkeys : KeysIssued s.db)
    (h : G.Effect (store P) p r .generate_key s (.ok key) s') :
    Uploading p key False False False s' := by
  obtain ⟨-, c, db', hrun, rfl⟩ := h.of_ok
  have hgives : generatesKey p key ⟨p, r, s.db, .generate_key, .ok key⟩ := ⟨rfl, rfl⟩
  have hrun' : Stmt.run P p c s.db .generate_key = some (db', .ok key) := hrun
  have hnew : key ∉ s.db.issued_keys := (Stmt.generates hrun' hgives).2.1
  obtain ⟨hrow, hobject, hmultipart⟩ := (hkeys key hnew).keep (Stmt.keepsKey hrun' id)
  refine ⟨fun key' => ?_, hrow, hobject, iff_false_intro hmultipart, iff_false_intro ?_⟩
  · refine givenKey_cons.trans ⟨fun hgiven => ?_, fun heq => .inl ⟨rfl, heq.symm⟩⟩
    exact (hgiven.resolve_right (hs.given key')).2.symm
  · exact fun hfailed => hs.flushed ((flushFailed_cons.mp hfailed).resolve_left id)

/-- A statement of the upload itself, by what it does under the key. -/
theorem Uploading.effect {opened' stored' : Prop} (hs : Uploading p key opened stored stranded s)
    (h : G.Effect (store P) p r q s x s') (hgives : ∀ key, ¬ generatesKey p key ⟨p, r, s.db, q, x⟩)
    (hfails : ¬ failsFlush p ⟨p, r, s.db, q, x⟩)
    (hrow : ∀ u ∈ s'.db.file_uploads.rows, u.object_key ≠ key)
    (hobject : key ∈ s'.db.objects → stored')
    (hmultipart : key ∈ s'.db.multiparts.map (·.1) ↔ opened') :
    Uploading p key opened' stored' stranded s' := by
  obtain ⟨hgiven, hflushed⟩ := log_of_effect h hgives hfails
  exact ⟨fun key' => (hgiven key').trans (hs.given key'), hrow, hobject, hmultipart,
    hflushed.trans hs.flushed⟩

/-- A call that fails changes nothing. -/
theorem Uploading.fail {e : Failure} (hs : Uploading p key opened stored stranded s)
    (h : G.Effect (store P) p r q s (.error e) s') (hq : ∀ key, q ≠ .flush_parts key)
    (hno : ∀ c db' y, q.run P p c s.db = some (db', .error y) → db' = s.db) :
    Uploading p key opened stored stranded s' := by
  have hfails : ¬ failsFlush p ⟨p, r, s.db, q, .error e⟩ := by
    intro hfails
    unfold failsFlush at hfails
    split at hfails
    · next heq =>
      cases heq
      exact hq _ rfl
    · exact hfails
  have hgives : ∀ key, ¬ generatesKey p key ⟨p, r, s.db, q, .error e⟩ := idle_of_error.1 p
  cases h with
  | fail hf => exact hs.effect (.fail hf) hgives hfails hs.row hs.object hs.multipart
  | run hadmits hrun =>
    have hdb := hno _ _ _ hrun
    subst hdb
    exact hs.effect (.run hadmits hrun) hgives hfails hs.row hs.object hs.multipart

/-- A call that succeeds, by what it does under the key. -/
theorem Uploading.succeed {a : q.Reply} {opened' stored' : Prop}
    (hs : Uploading p key opened stored stranded s) (h : G.Effect (store P) p r q s (.ok a) s')
    (hq : q ≠ .generate_key)
    (hdoes : ∀ c db', q.run P p c s.db = some (db', .ok a) →
      (∀ u ∈ db'.file_uploads.rows, u.object_key ≠ key) ∧ (key ∈ db'.objects → stored') ∧
        (key ∈ db'.multiparts.map (·.1) ↔ opened')) :
    Uploading p key opened' stored' stranded s' := by
  obtain ⟨-, c, db', hrun, rfl⟩ := h.of_ok
  obtain ⟨hrow, hobject, hmultipart⟩ := hdoes c db' hrun
  refine hs.effect h (fun key' hgives => ?_) (fun hfails => ?_) hrow hobject hmultipart
  · unfold generatesKey at hgives
    split at hgives
    · next heq =>
      cases heq
      exact hq rfl
    · exact hgives
  · unfold failsFlush at hfails
    split at hfails
    · next heq => cases heq
    · exact hfails

theorem Uploading.begin_upload (hs : Uploading p key False stored stranded s)
    (h : G.Effect (store P) p r (.begin_upload key) s (.ok ()) s') :
    Uploading p key True stored stranded s' := by
  refine hs.succeed h nofun fun c db' hrun => ?_
  cases hrun
  exact ⟨hs.row, hs.object, iff_true_intro List.mem_cons_self⟩

theorem Uploading.write_part {bytes : List ℕ} (hs : Uploading p key opened stored stranded s)
    (h : G.Effect (store P) p r (.write_part key bytes) s (.ok ()) s') :
    Uploading p key opened stored stranded s' := by
  refine hs.succeed h nofun fun c db' hrun => ?_
  cases hrun
  rw [keys_write]
  exact ⟨hs.row, hs.object, hs.multipart⟩

theorem Uploading.flush_parts (hs : Uploading p key opened stored stranded s)
    (h : G.Effect (store P) p r (.flush_parts key) s (.ok ()) s') :
    Uploading p key opened stored stranded s' := by
  refine hs.succeed h nofun fun c db' hrun => ?_
  cases hrun
  exact ⟨hs.row, hs.object, hs.multipart⟩

theorem Uploading.put_object (hs : Uploading p key opened stored stranded s)
    (h : G.Effect (store P) p r (.put_object key) s (.ok ()) s') :
    Uploading p key False True stranded s' := by
  refine hs.succeed h nofun fun c db' hrun => ?_
  cases hrun
  exact ⟨hs.row, fun _ => trivial, iff_false_intro (not_mem_keys_filter _ _)⟩

theorem Uploading.abort_upload (hs : Uploading p key opened stored stranded s)
    (h : G.Effect (store P) p r (.abort_upload key) s (.ok ()) s') :
    Uploading p key False stored stranded s' := by
  refine hs.succeed h nofun fun c db' hrun => ?_
  cases hrun
  exact ⟨hs.row, hs.object, iff_false_intro (not_mem_keys_filter _ _)⟩

theorem Uploading.delete_object (hs : Uploading p key opened stored stranded s)
    (h : G.Effect (store P) p r (.delete_object key) s (.ok ()) s') :
    Uploading p key opened False stranded s' := by
  refine hs.succeed h nofun fun c db' hrun => ?_
  cases hrun
  exact ⟨hs.row, not_mem_keys_filter s.db.bucket key, hs.multipart⟩

/-- A flush that fails is the one failure the code does not undo. -/
theorem Uploading.strand {e : Failure} (hs : Uploading p key opened stored stranded s)
    (h : G.Effect (store P) p r (.flush_parts key) s (.error e) s') :
    Uploading p key opened stored True s' := by
  cases h with
  | fail _ =>
    refine ⟨fun key' => ?_, hs.row, hs.object, hs.multipart, ?_⟩
    · exact givenKey_cons.trans ((or_iff_right id).trans (hs.given key'))
    · exact iff_true_intro (flushFailed_cons.mpr (.inl rfl))
  | run _ hrun => cases hrun

/-! #### The scripts -/

/-- Statements that put nothing under a key, and neither give one nor are the end of a write. -/
def KeyFree (q : Stmt) : Prop :=
  (∀ key, ¬ q.onKey key) ∧ q ≠ .generate_key ∧ ∀ key, q ≠ .flush_parts key

theorem KeyFree.keyless (hq : KeyFree q) (hs : Keyless p s) (h : G.Effect (store P) p r q s x s') :
    Keyless p s' := by
  refine hs.effect h (fun key hgives => ?_) fun hfails => ?_
  · unfold generatesKey at hgives
    split at hgives
    · next heq =>
      cases heq
      exact hq.2.1 rfl
    · exact hgives
  · unfold failsFlush at hfails
    split at hfails
    · next heq =>
      cases heq
      exact hq.2.2 _ rfl
    · exact hfails

theorem wp_of_keyFree {x : Code ε α} (hx : x.Issues KeyFree) (hs : Keyless p s) :
    (keyLogic P G).wp p r x (fun _ => Keyless p) s :=
  Logic.wp_of_does KeyFree (fun _ _ => True) (Keyless p) (fun _ => True)
    (fun hK he => hK.env he) (fun hq _ _ key hon => absurd hon (hq.1 key))
    (fun hq _ hK hx _ => ⟨trivial, hq.keyless hK hx⟩) (fun _ hK => hK) hx.does hs

/-- What a failure leaves behind is what a failed flush has left. -/
def LeavesNothing (d : Deployment) (p : ℕ) : Except ε α → State → Prop
  | .ok _, _ => True
  | .error _, s => LeftByFlush d p s

/-- The write stays in progress while the body is streamed. -/
theorem wp_stream_clean (hs : Uploading p key True False False s) (declared : Option String)
    (limit : ℕ) (body : List Chunk) (st : StreamState) :
    (keyLogic P G).wp p r (stream_upload key declared limit body st)
      (fun _ => Uploading p key True False False) s := by
  have hissues := FormService.stream_upload_issues
      (P := fun q => ∃ bytes, q = .write_part key bytes)
    (fun bytes => ⟨bytes, rfl⟩) declared limit body st
  refine Logic.wp_of_does _ (fun _ _ => True) (Uploading p key True False False) (fun _ => True)
    (fun hK he => hK.env he) ?_ ?_ (fun _ hK => hK) hissues.does hs
  · rintro q s ⟨bytes, rfl⟩ - hK key' rfl
    exact (hK.given key).mpr rfl
  · rintro q s x s' ⟨bytes, rfl⟩ - hK hx -
    refine ⟨trivial, ?_⟩
    cases x with
    | ok _ => exact hK.write_part hx
    | error e => exact hK.fail hx nofun fun _ _ _ hrun => by cases hrun

theorem not_effect_error {e : Failure} (hq : q.undoes) :
    ¬ undoesSucceed.Effect (store P) p r q s (.error e) s' := by
  intro h
  cases h with
  | fail hfails => exact hfails hq
  | run _ hrun =>
    cases q with
    | abort_upload _ | delete_object _ => cases hrun
    | _ => exact hq.elim

/-- A write that is given up is gone, whatever has happened to its flush. -/
theorem wp_give_up_clean {Φ : Except FormError Unit → State → Prop} {e : Failure}
    (hs : Uploading p key True False stranded s)
    (hΦ : ∀ e s', Uploading p key False False stranded s' → Φ (.error e) s') :
    (keyLogic P undoesSucceed).wp p r (UploadWriter.give_up key e) Φ s := by
  refine Logic.wp_query_bind fun s₁ he₁ => ⟨fun key' heq => ?_, fun _ s₂ hx₂ _ s₃ he₃ => ?_,
    fun e s₂ hx₂ => absurd hx₂ (not_effect_error trivial)⟩
  · exact ((hs.env he₁).given key').mpr heq.symm
  · exact hΦ _ _ (((hs.env he₁).abort_upload hx₂).env he₃)

/-- Completing a write takes it away, unless the last parts do not arrive and the client does not
care. -/
theorem wp_finish_clean (hs : Uploading p key True False False s) :
    (keyLogic P undoesSucceed).wp p r (UploadWriter.finish key d.platform)
      (fun y s' => match y with
        | .ok _ => Uploading p key False True False s'
        | .error _ => LeftByFlush d p s') s := by
  refine Logic.wp_attempt_bind fun s₁ he₁ => ⟨fun _ => False.elim, fun flushed s₂ hx₂ hs₂ => ?_⟩
  cases flushed with
  | error e =>
    have hstranded : Uploading p key True False True s₂ := (hs.env he₁).strand hx₂
    dsimp only
    split
    · next haborts =>
      refine wp_give_up_clean hstranded fun _ _ hgone => hgone.leftByFlush (iff_of_false id ?_)
      rintro ⟨-, hnot⟩
      rw [haborts] at hnot
      cases hnot
    · next haborts =>
      -- Nobody aborts the write.
      exact fun s₃ he₃ => (hstranded.env he₃).leftByFlush
        (iff_of_true trivial ⟨trivial, Bool.eq_false_iff.mpr haborts⟩)
  | ok _ =>
    have hopen : Uploading p key True False False s₂ := (hs.env he₁).flush_parts hx₂
    refine Logic.wp_attempt_bind fun s₃ he₃ => ⟨fun key' heq => ?_, fun completed s₄ hx₄ _ => ?_⟩
    · exact ((hopen.env he₃).given key').mpr heq.symm
    cases completed with
    | ok _ => exact fun s₅ he₅ => ((hopen.env he₃).put_object hx₄).env he₅
    | error e =>
      have hfailed : Uploading p key True False False s₄ :=
        (hopen.env he₃).fail hx₄ nofun fun _ _ _ hrun => by cases hrun
      exact wp_give_up_clean hfailed fun _ _ hgone => hgone.leftByFlush_closed

/-- An object without a row is deleted again. -/
theorem wp_record_clean {upload : NewFileUpload}
    (hs : Uploading p upload.object_key False True False s) :
    (keyLogic P undoesSucceed).wp p r (FormService.record_upload upload) (LeavesNothing d p) s := by
  refine Logic.wp_attempt_bind fun s₁ he₁ => ⟨fun key hkey => ?_, fun y s₂ hx₂ hs₂ => ?_⟩
  · exact ((hs.env he₁).given key).mpr hkey.symm
  cases y with
  | ok row => exact fun _ _ => trivial
  | error e =>
    have hs₂ : Uploading p upload.object_key False True False s₂ := by
      refine (hs.env he₁).fail hx₂ nofun fun c db' y hrun => ?_
      rcases UploadStmt.run_insert hrun with ⟨-, hdb⟩ | ⟨row, hrow, -⟩
      · exact hdb
      · cases hrow
    refine Logic.wp_attempt_bind fun s₃ he₃ => ⟨fun _ => False.elim, fun z s₄ hx₄ _ => ?_⟩
    cases z with
    | ok _ =>
      exact fun s₅ he₅ => (((hs₂.env he₃).delete_object hx₄).env he₅).leftByFlush_closed
    | error e => exact absurd hx₄ (not_effect_error trivial)

theorem LedgerFree.not_onKey (hq : LedgerFree q) (key : String) : ¬ q.onKey key := by
  have hpre : LedgerPre 0 ⟨Database.sample, []⟩ q := hq.1 _ _
  intro hon
  unfold Stmt.onKey at hon
  split at hon
  · exact hpre
  · exact hpre
  · exact hpre
  · exact hpre
  · obtain ⟨e, he, -⟩ := hpre
    exact absurd he List.not_mem_nil
  · exact hon

/-- Requests that put nothing. -/
theorem wp_of_not_onKey {x : Code ε α} (hx : x.Issues fun q => ∀ key, ¬ q.onKey key)
    (s : State) : (keyLogic P G).wp p r x (fun _ _ => True) s :=
  Logic.wp_of_does (fun q => ∀ key, ¬ q.onKey key) (fun _ _ => True) (fun _ => True)
    (fun _ => True) (fun _ _ => trivial) (fun hq _ _ key hon => absurd hon (hq key))
    (fun _ _ _ _ _ => ⟨trivial, trivial⟩) (fun _ _ => trivial) hx.does trivial

theorem wp_upload_clean (hs : KeysOwned s) (hkeyless : Keyless p s) (public_id field_key : String)
    (filename declared_type : Option String) (body : List Chunk) :
    (keyLogic P undoesSucceed).wp p r
      (FormService.upload d public_id field_key filename declared_type body)
      (LeavesNothing d p) s := by
  have hthrow : ∀ {s s'} {e : FormError}, Keyless p s → (keyLogic P undoesSucceed).Env p s s' →
      LeavesNothing (α := UploadedFile) d p (.error e) s' := fun hs he => (hs.env he).leftByFlush
  unfold FormService.upload
  split
  · exact fun s₁ he₁ => hthrow hkeyless he₁
  have hload : (FormService.load_published public_id).Issues KeyFree :=
    FormService.load_published_issues ⟨fun _ => id, nofun, nofun⟩
  refine Logic.wp_bind hs (wp_of_keyFree hload hkeyless) (fun form s₁ hs₁ hkeyless₁ => ?_)
    fun _ _ _ h => h.leftByFlush
  have hcheck : KeyFree (.check_key form.id) := ⟨fun _ => id, nofun, nofun⟩
  refine Logic.wp_query_bind fun s₂ he₂ => ⟨fun _ => False.elim, fun allowed s₃ hx₃ hs₃ => ?_,
    fun e s₃ hx₃ _ s₄ he₄ => hthrow (hcheck.keyless (hkeyless₁.env he₂) hx₃) he₄⟩
  have hkeyless₃ : Keyless p s₃ := hcheck.keyless (hkeyless₁.env he₂) hx₃
  split
  · exact fun s₄ he₄ => hthrow hkeyless₃ he₄
  cases FormService.upload_target form field_key declared_type with
  | error e => exact fun s₄ he₄ => hthrow hkeyless₃ he₄
  | ok target =>
    obtain ⟨field, declared⟩ := target
    refine Logic.wp_query_bind fun s₄ he₄ => ⟨fun _ => False.elim, fun key s₅ hx₅ hs₅ => ?_,
      fun e s₅ hx₅ _ s₆ he₆ => ?_⟩
    swap
    · exact hthrow ((hkeyless₃.env he₄).effect hx₅ (fun _ => id) id) he₆
    have hnew : Uploading p key False False False s₅ :=
      (hkeyless₃.env he₄).generate_key he₄.inv.keys hx₅
    refine Logic.wp_query_bind fun s₆ he₆ => ⟨fun key' heq => ?_, fun _ s₇ hx₇ hs₇ => ?_,
      fun e s₇ hx₇ _ s₈ he₈ => ?_⟩
    · exact ((hnew.env he₆).given key').mpr heq.symm
    swap
    · have hnone : Uploading p key False False False s₇ :=
        (hnew.env he₆).fail hx₇ nofun fun _ _ _ hrun => by cases hrun
      exact (hnone.env he₈).leftByFlush_closed
    have hopen : Uploading p key True False False s₇ := (hnew.env he₆).begin_upload hx₇
    refine Logic.wp_bind (Ψ := fun y s' => match y with
        | .ok _ => Uploading p key True False False s'
        | .error _ => False) hs₇ (Logic.wp_result (wp_stream_clean hopen _ _ _ _))
      (fun y s₈ hs₈ hopen₈ => ?_) fun _ _ _ h => h.elim
    cases y with
    | error e =>
      refine Logic.wp_attempt_bind fun s₉ he₉ => ⟨fun key' heq => ?_, fun z s₁₀ hx₁₀ _ => ?_⟩
      · exact ((hopen₈.env he₉).given key').mpr heq.symm
      cases z with
      | ok _ =>
        exact fun s₁₁ he₁₁ => (((hopen₈.env he₉).abort_upload hx₁₀).env he₁₁).leftByFlush_closed
      | error e => exact absurd hx₁₀ (not_effect_error trivial)
    | ok size =>
      exact Logic.wp_bind hs₈ (wp_finish_clean hopen₈)
        (fun _ s₉ hs₉ hstored => wp_record_clean hstored) fun _ _ _ h => h

theorem reap_keyless (d : Deployment) :
    (FormService.reap_abandoned_uploads d).Issues fun q => ∀ key, ¬ q.onKey key := by
  unfold FormService.reap_abandoned_uploads
  split
  · exact Script.issues_ret
  refine (Script.issues_query fun _ => id).bind fun now => ?_
  refine (Script.issues_query fun _ => id).bind fun abandoned => ?_
  refine Script.Issues.forEach (fun u => ?_) abandoned
  refine (Script.issues_attempt fun _ => id).bind fun y => ?_
  cases y with
  | error e => exact Script.issues_ret
  | ok _ => exact Script.issues_query fun _ => id

/-- The requests that upload something. -/
def Request.uploads : Request → Prop
  | upload _ _ _ _ _ => True
  | _ => False

/-- **The requests around uploads let the keys of others be**, and an upload that fails leaves
nothing behind but what a failed flush has left. -/
theorem wp_handlesUploads_clean (hr : r.handlesUploads) (hs : KeysOwned s)
    (hfresh : ∀ e ∈ s.log, e.pid ≠ p) :
    (keyLogic d.platform undoesSucceed).wp p r (Request.code d r)
      (fun y s' => r.uploads → LeavesNothing d p y s') s := by
  have hother : ∀ {ε α : Type} {x : Code ε α} {Φ : Except ε α → State → Prop},
      x.Issues (fun q => ∀ key, ¬ q.onKey key) → (∀ y s, Φ y s) →
      (keyLogic d.platform undoesSucceed).wp p r x Φ s :=
    fun hx hΦ => Logic.wp_mono (wp_of_not_onKey hx s) fun y s _ _ => hΦ y s
  have hfree : ∀ {ε α : Type} {x : Code ε α}, x.Issues LedgerFree →
      x.Issues fun q => ∀ key, ¬ q.onKey key := fun hx => hx.mono fun _ hq => hq.not_onKey
  cases r with
  | upload public_id field_key filename declared_type body =>
    have hkeyless : Keyless p s := by
      refine ⟨fun key => ?_, ?_⟩
      · rintro ⟨e, he, hgives⟩
        exact hfresh e he (pid_of_generatesKey hgives)
      · rintro ⟨e, he, hfails⟩
        exact hfresh e he (pid_of_failsFlush hfails)
    exact Logic.wp_mono (wp_upload_clean hs hkeyless public_id field_key filename
      declared_type body)
      fun _ _ _ h _ => h
  | submit public_id payload client referer =>
    exact hother (hfree (submit_free public_id payload client referer)) fun _ _ => False.elim
  | delete_submission organization_id submission_id actor_id =>
    exact hother (hfree (delete_submission_ledgerFree organization_id submission_id actor_id))
      fun _ _ => False.elim
  | delete_form organization_id form_id actor_id =>
    exact hother (hfree (delete_form_free organization_id form_id actor_id)) fun _ _ => False.elim
  | delete_organization organization_id actor_id =>
    exact hother (hfree (delete_organization_free organization_id actor_id)) fun _ _ => False.elim
  | reap_abandoned_uploads => exact hother (reap_keyless d) fun _ _ => False.elim
  | _ => exact hr.elim

variable {db : Database} {w : World}

/-- **What a failed upload leaves behind**, whatever the requests around it do: nothing, unless a
flush of its own has failed and the client of the store has not given the write up by itself. -/
theorem nothingLeft_iff (hdb : KeysIssued db) (h : Reaches d undoesSucceed (World.start db) w)
    {public_id field_key : String} {filename declared_type : Option String} {body : List Chunk}
    {e : FormError} (hfailed : w.procs p =
      some ⟨.upload public_id field_key filename declared_type body, some (.throw e)⟩) :
    (∀ key, GivenKey p key w.shared.log → NothingLeft key w.shared.db) ↔
      d.platform.aborts_failed_flush = true ∨ ¬ FlushFailed p w.shared.log := by
  have hsafe : (keyLogic d.platform undoesSucceed).Safe
      (fun p r y s => r.uploads → LeavesNothing d p y s) w := by
    refine Logic.safe_of_reaches (fun p r s hr hs hfresh => wp_handlesUploads_clean hr hs hfresh)
      (.start ⟨hdb, ?_, ?_⟩) h
    · rintro p key ⟨e, he, -⟩
      exact absurd he List.not_mem_nil
    · rintro p p' key ⟨e, he, -⟩
      exact absurd he List.not_mem_nil
  exact hsafe.code p _ _ hfailed w.shared (.refl hsafe.inv) trivial

end Scripts

/-! ### A flush that fails

The last part of the body does not arrive, and `finish` reports it. With a client that leaves it
at that, the write stays open for ever: no row names it, so the reaper will not find it either. -/

instance : DecidablePred Stmt.undoes := fun q => by
  delta Stmt.undoes
  split <;> infer_instance

instance : undoesSucceed.Test where
  spawns := inferInstanceAs (DecidablePred Request.handlesUploads)
  admits _ _ _ _ := inferInstanceAs (Decidable True)
  fails _ := inferInstanceAs (Decidable (¬ _))
  stops := inferInstanceAs (Decidable True)

instance (p : ℕ) (key : String) : DecidablePred (generatesKey p key) := fun e => by
  delta generatesKey
  split <;> infer_instance

instance (p : ℕ) (key : String) (log : List Event) : Decidable (GivenKey p key log) :=
  inferInstanceAs (Decidable (∃ e ∈ log, generatesKey p key e))

instance (p : ℕ) : DecidablePred (failsFlush p) := fun e => by
  delta failsFlush
  split <;> infer_instance

instance (p : ℕ) (log : List Event) : Decidable (FlushFailed p log) :=
  inferInstanceAs (Decidable (∃ e ∈ log, failsFlush p e))

theorem keysIssued_formWithFile : KeysIssued formWithFile :=
  fun _ _ => ⟨fun _ hu => absurd hu List.not_mem_nil, List.not_mem_nil, List.not_mem_nil⟩

/-- A file, up to the end of its body. -/
def streamFile : List Step :=
  [.spawn 0 (.upload "contact" "cv" (some "cv.txt") (some "text/plain") [.ok [104, 105]]),
    .step 0 {}, .step 0 {}, .step 0 { text := "k1" }, .step 0 {}, .step 0 {}]

/-- The last part arrives, but the object cannot be completed. -/
def completionFails : List Step := streamFile ++ [.step 0 {}, .fail 0 .unavailable, .step 0 {}]

/-- The last part does not arrive. -/
def flushFails : List Step := streamFile ++ [.fail 0 .unavailable]

/-- A completion that fails is aborted. -/
theorem nothingLeft_completionFails :
    let w := Deployment.sample.play undoesSucceed completionFails formWithFile
    GivenKey 0 "k1" w.shared.log ∧ NothingLeft "k1" w.shared.db := by
  have hreaches := Deployment.sample.reaches_play undoesSucceed completionFails formWithFile
  have hgiven : GivenKey 0 "k1"
      (Deployment.sample.play undoesSucceed completionFails formWithFile).shared.log := by
    decide +kernel
  have hclean := (nothingLeft_iff keysIssued_formWithFile hreaches (p := 0) (by rfl)).mpr
    (.inr (by decide +kernel))
  exact ⟨hgiven, hclean "k1" hgiven⟩

/-- **The write stays**: when the last part does not arrive and the client does not give the write
up by itself, nobody aborts it. -/
theorem not_nothingLeft : ¬ ∀ w, Reaches .sample undoesSucceed (World.start formWithFile) w →
    ∀ p public_id field_key filename declared_type body e, w.procs p =
      some ⟨.upload public_id field_key filename declared_type body, some (.throw e)⟩ →
    ∀ key, GivenKey p key w.shared.log → NothingLeft key w.shared.db := by
  intro hall
  have hreaches := Deployment.sample.reaches_play undoesSucceed flushFails formWithFile
  have hleft := hall _ hreaches 0 _ _ _ _ _ _ (by rfl) "k1" (by decide +kernel)
  exact hleft.multipart (by decide +kernel)

end SubmitSnap
