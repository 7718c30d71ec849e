import SubmitSnap.Form.LeftBehind
import SubmitSnap.Form.Orphans
import SubmitSnap.Form.Streaming
import SubmitSnap.Tenant.Confined

/-!
# What is in the bucket is what was sent

An upload is streamed part by part under a key of its own, completed, and written into the ledger,
while any other request runs in between and any call may fail. The key is what keeps the parts of
two uploads apart: nobody else writes under it, so what is completed is the body, and the row that
is written afterwards says what the body was.

## The argument

A key is given once, and only whoever it was given to writes under it. Therefore an upload may
count on the others for everything that concerns its key: the parts in progress, the object, and
that no row names it. This is the rely condition of `contentsLogic`, and it follows from the
ownership of the keys alone; nothing is locked.

Under that protection the upload is a sequential program. Its loop keeps that the parts in
progress are the bytes that have come so far (`InLoop`), completing the write makes them the
object (`Writing.put_object`), and the row that is written then describes what is there. After
that the key is named by a row, and neither the upload nor anybody else puts an object under it
again: an object may only be put where no row has ever named the key. So what the row says stays
true for good.

## Main definitions

* `SentAs` — what was asked to be recorded is what a client has sent.
* `KeepsContents` — what is under a key stays as it is.
* `contentsLogic` — rely and guarantee of the bucket.

## Main results

* `stored_as_sent` — the bytes in the bucket are those a client sent, as the ledger describes them.
-/

namespace SubmitSnap

open Interleave
open Interleave.Script

/-! ### What is under a key

The three places in which a key can occur are the writes in progress, the bucket and the ledger.
All but the ledger belong to whoever was given the key; the ledger is everybody's, but a row under
a key is only ever written by its owner. -/

/-- The row is in the ledger, or was there at some time. -/
def Seen (u : FileUploadRecord) (s : State) : Prop :=
  u ∈ s.db.file_uploads.rows ∨ ∃ e ∈ s.log, u ∈ e.before.file_uploads.rows

/-- No row has ever named the key. -/
def Unnamed (key : String) (s : State) : Prop := ∀ u, Seen u s → u.object_key ≠ key

/-- What is under a key stays as it is: the parts of a write in progress and the objects, and no row
comes to name it. -/
structure KeepsContents (key : String) (s s' : State) : Prop where
  parts : s'.db.multiparts.find? (·.1 == key) = s.db.multiparts.find? (·.1 == key)
  object : ∀ bytes, (key, bytes) ∈ s'.db.bucket → (key, bytes) ∈ s.db.bucket
  named : Unnamed key s → Unnamed key s'

section Keys

variable {P : Platform} {G : Regime} {p : ℕ} {r : Request} {c : Choice} {db db' : Database}
  {q : Stmt} {x : Except Failure q.Reply} {key key' : String} {s s' s'' : State}
  {u : FileUploadRecord}

theorem KeepsContents.refl (key : String) (s : State) : KeepsContents key s s :=
  ⟨rfl, fun _ => id, id⟩

theorem KeepsContents.trans (h : KeepsContents key s s') (h' : KeepsContents key s' s'') :
    KeepsContents key s s'' :=
  ⟨h'.parts.trans h.parts, fun bytes hb => h.object bytes (h'.object bytes hb), h'.named ∘ h.named⟩

theorem seen_of_rows (h : db.file_uploads = s.db.file_uploads) : Seen u ⟨db, s.log⟩ ↔ Seen u s := by
  unfold Seen
  rw [h]

theorem Seen.effect (h : Seen u s) (hx : G.Effect (store P) p r q s x s') : Seen u s' := by
  rcases h with hu | ⟨e, he, hu⟩
  · exact .inr ⟨_, hx.mem_self, hu⟩
  · exact .inr ⟨e, hx.mem he, hu⟩

/-- A row that is seen was seen before, or has come by now. -/
theorem seen_of_effect (hx : G.Effect (store P) p r q s x s') (h : Seen u s') :
    Seen u s ∨ u ∈ s'.db.file_uploads.rows := by
  rcases h with hu | ⟨e, he, hu⟩
  · exact .inr hu
  · rw [hx.log_eq] at he
    rcases List.mem_cons.mp he with rfl | he
    · exact .inl (.inl hu)
    · exact .inl (.inr ⟨e, he, hu⟩)

/-- Parts of other objects. -/
theorem find_write_of_ne (multiparts : List (String × List ℕ)) (bytes : List ℕ) (hne : key' ≠ key) :
    (multiparts.map fun m => if m.1 == key' then (key', m.2 ++ bytes) else m).find? (·.1 == key) =
      multiparts.find? (·.1 == key) := by
  induction multiparts with
  | nil => rfl
  | cons m multiparts ih =>
    rw [List.map_cons, List.find?_cons, List.find?_cons, ih]
    by_cases h : m.1 = key'
    · subst h
      simp [beq_eq_false_iff_ne.mpr hne]
    · simp [h]

theorem find_filter_of_ne (multiparts : List (String × List ℕ)) (hne : key' ≠ key) :
    (multiparts.filter (·.1 != key')).find? (·.1 == key) = multiparts.find? (·.1 == key) := by
  induction multiparts with
  | nil => rfl
  | cons m multiparts ih =>
    rw [List.filter_cons, List.find?_cons]
    by_cases h : m.1 = key'
    · subst h
      simpa [beq_eq_false_iff_ne.mpr hne] using ih
    · rw [if_pos (by simpa using h), List.find?_cons, ih]

/-- Objects come into the bucket by being put there. -/
theorem Stmt.bucket_from (hq : ∀ key, q ≠ .put_object key) (h : q.run P p c db = some (db', x)) :
    ∀ o ∈ db'.bucket, o ∈ db.bucket := by
  cases q with
  | put_object key => exact absurd rfl (hq key)
  | delete_object key =>
    cases h
    exact fun o ho => List.mem_of_mem_filter ho
  | _ =>
    have hsame : db'.bucket = db.bucket := Stmt.footprint .bucket rfl h
    exact fun o ho => hsame ▸ ho

/-- **What is not its business** a statement leaves as it is. -/
theorem Stmt.keepsContents (hx : G.Effect (store P) p r q s x s') (hq : ¬ q.onKey key) :
    KeepsContents key s s' := by
  have hnamed : ((∀ u ∈ s.db.file_uploads.rows, u.object_key ≠ key) →
      ∀ u ∈ s'.db.file_uploads.rows, u.object_key ≠ key) → Unnamed key s → Unnamed key s' :=
    fun hrow hs u hu => (seen_of_effect hx hu).elim (hs u) fun hu =>
      hrow (fun u hu => hs u (.inl hu)) u hu
  cases hx with
  | fail _ => exact ⟨rfl, fun _ => id, hnamed id⟩
  | @run c db' x _ hrun =>
    have h : q.run P p c s.db = some (db', x) := hrun
    refine ⟨?_, fun bytes hb => ?_, hnamed (Stmt.keepsKey h hq).row⟩
    · cases q with
      | begin_upload key' =>
        cases hrun
        exact List.find?_cons_of_neg fun heq => hq (beq_iff_eq.mp heq)
      | write_part key' bytes =>
        cases hrun
        exact find_write_of_ne _ _ hq
      | put_object key' | abort_upload key' =>
        cases hrun
        exact find_filter_of_ne _ hq
      | _ => rw [Shared.push_db, Stmt.footprint .multiparts rfl h]
    · by_cases hput : ∃ key', q = .put_object key'
      · obtain ⟨key', rfl⟩ := hput
        cases hrun
        rcases List.mem_cons.mp hb with heq | hb
        · exact absurd (congrArg Prod.fst heq).symm hq
        · exact hb
      · exact Stmt.bucket_from (fun key' heq => hput ⟨key', heq⟩) h _ hb

end Keys

/-! ### What a client has sent

The two descriptions are kept apart. `SentAs` is about the log: which request the bytes came with
and what its form said. `Described` adds what is in the bucket, and that is the part which could
become wrong later on. -/

/-- What was asked to be recorded in the row. -/
def FileUploadRecord.asked (u : FileUploadRecord) : NewFileUpload where
  organization_id := u.organization_id
  form_id := u.form_id
  field_key := u.field_key
  object_key := u.object_key
  filename := u.filename
  content_type := u.content_type
  size_bytes := u.size_bytes

/-- What was asked to be recorded is what a client has sent: these bytes, for that field of a form
that was published then, no more of them than the field takes, and with leading bytes that do not
contradict the declared type. -/
structure SentAs (d : Deployment) (n : NewFileUpload) (chunks : List (List ℕ)) (log : List Event) :
    Prop where
  exists_upload : ∃ p public_id filename declared_type before form field,
    ⟨p, .upload public_id n.field_key filename declared_type (chunks.map .ok), before,
      .forms (.find_by_public_id public_id), .ok (some form)⟩ ∈ log ∧
    form.status = .published ∧
    FormService.upload_target form n.field_key declared_type = .ok (field, n.content_type) ∧
    n.organization_id = form.organization_id ∧ n.form_id = form.id ∧
    n.filename = clean_filename filename ∧ chunks.flatten.length ≤ effective_limit d field
  size : n.size_bytes = chunks.flatten.length
  contents : consistent (some n.content_type) chunks.flatten = true

/-- It is what a client has sent in these chunks, and nothing else is in the bucket under its
key. -/
structure Described (d : Deployment) (n : NewFileUpload) (chunks : List (List ℕ)) (s : State) :
    Prop where
  sent : SentAs d n chunks s.log
  object : ∀ bytes, (n.object_key, bytes) ∈ s.db.bucket → bytes = chunks.flatten

/-- Keys have owners, rows are named by keys that were given, and the rows that have come into the
ledger say what was sent.

The last part is what the module is about; the other two keep it true. It speaks of every row that
has ever been *seen*, not only of those that are there: a row may be forgotten while its object is
still in the bucket, and the key must not be used for something else after that. With `issued`, a
key that is drawn now is one that no row has ever named, so a new upload starts with a clear key;
and with `keys`, an object under a key that somebody was given is that process's own work. -/
structure ContentsInv (d : Deployment) (db₀ : Database) (s : State) : Prop where
  keys : KeysOwned s
  issued : ∀ u, Seen u s → u.object_key ∈ s.db.issued_keys
  rows : ∀ u, Seen u s →
    (∃ u₀ ∈ db₀.file_uploads.rows, u₀.Same u) ∨ ∃ chunks, Described d u.asked chunks s

/-- An object is put before its row is written, and the row says what was put. For an object this
asks that no row has ever named its key: otherwise a row that describes what was there would
become wrong. -/
def Stmt.describes (d : Deployment) (s : State) : Stmt → Prop
  | put_object key => Unnamed key s
  | uploads (.insert n) => ∃ chunks, Described d n chunks s
  | _ => True

section Steps

variable {P : Platform} {d : Deployment} {G : Regime} {p : ℕ} {r : Request} {q : Stmt}
  {x : Except Failure q.Reply} {s s' : State} {db₀ db' : Database} {c : Choice}
  {n : NewFileUpload} {chunks : List (List ℕ)} {log log' : List Event}

theorem SentAs.mono (h : SentAs d n chunks log) (hlog : ∀ e ∈ log, e ∈ log') :
    SentAs d n chunks log' := by
  obtain ⟨p, public_id, filename, declared_type, before, form, field, hmem, hrest⟩ :=
    h.exists_upload
  exact ⟨⟨p, public_id, filename, declared_type, before, form, field, hlog _ hmem, hrest⟩,
    h.size, h.contents⟩

theorem FileUploadRecord.Same.asked {u u' : FileUploadRecord} (h : u.Same u') :
    u'.asked = u.asked := by
  rw [← h]
  rfl

/-- The new row is as it was asked for. -/
theorem asked_of_insert {row : FileUploadRecord}
    (h : (UploadStmt.insert n).run p c s.db = some (db', .ok row)) :
    row.asked = n ∧ db'.file_uploads = s.db.file_uploads.insertNew row := by
  simp only [UploadStmt.run] at h
  (repeat' split at h) <;> cases h
  exact ⟨rfl, rfl⟩

/-- What describes the bucket still does after what puts nothing under the key. -/
theorem Described.effect (h : Described d n chunks s) (hput : q ≠ .put_object n.object_key)
    (hx : G.Effect (store P) p r q s x s') : Described d n chunks s' := by
  refine ⟨h.sent.mono fun _ => hx.mem, fun bytes hb => h.object bytes ?_⟩
  cases hx with
  | fail _ => exact hb
  | run _ hrun =>
    by_cases hq : ∃ key, q = .put_object key
    · obtain ⟨key, rfl⟩ := hq
      cases hrun
      rcases List.mem_cons.mp hb with heq | hb
      · exact absurd (congrArg (fun o => Stmt.put_object o.1) heq).symm hput
      · exact hb
    · exact Stmt.bucket_from (fun key heq => hq ⟨key, heq⟩) hrun _ hb

/-- What a row that was seen describes is not touched any more. -/
theorem Described.effect_of_seen {u : FileUploadRecord} (h : Described d u.asked chunks s)
    (hu : Seen u s) (hpre : q.describes d s) (hx : G.Effect (store P) p r q s x s') :
    Described d u.asked chunks s' := by
  refine h.effect ?_ hx
  rintro rfl
  exact hpre u hu rfl

/-- **What one statement preserves.** An object is put under a key that no row has ever named, so
it is none of those described; a row is written by whoever can say what is under its key; and what
a row describes is not touched, as only the owner of the key could do so. -/
theorem ContentsInv.effect (hs : ContentsInv d db₀ s) (hkey : KeyPre p s q)
    (hpre : q.describes d s) (hx : G.Effect (store P) p r q s x s') : ContentsInv d db₀ s' := by
  have hkeys : KeysOwned s' := hs.keys.effect hkey hx
  have hkept : ∀ u u₁, Seen u₁ s → u₁.Same u →
      (∃ u₀ ∈ db₀.file_uploads.rows, u₀.Same u) ∨ ∃ chunks, Described d u.asked chunks s' := by
    intro u u₁ hu₁ hsame
    rcases hs.rows u₁ hu₁ with ⟨u₀, hu₀, hsame₀⟩ | ⟨chunks, hdescribed⟩
    · exact .inl ⟨u₀, hu₀, hsame₀.trans hsame⟩
    · rw [hsame.asked]
      exact .inr ⟨chunks, hdescribed.effect_of_seen hu₁ hpre hx⟩
  refine ⟨hkeys, fun u hu => ?_, fun u hu => ?_⟩
  · rcases seen_of_effect hx hu with hu | hu
    · have hissued := hs.issued u hu
      cases hx with
      | fail _ => exact hissued
      | run _ hrun => exact Stmt.issued_keys_mono hrun hissued
    · by_contra hnew
      exact (hkeys.keys u.object_key hnew).row u hu rfl
  · rcases seen_of_effect hx hu with hold | hu
    · exact hkept u u hold (.refl u)
    by_cases hq : ∃ n, q = .uploads (.insert n)
    · obtain ⟨n, rfl⟩ := hq
      obtain ⟨chunks, hdescribed⟩ : ∃ chunks, Described d n chunks s := hpre
      have hdescribed' : Described d n chunks s' :=
        Described.effect (q := .uploads (.insert n)) hdescribed nofun hx
      cases hx with
      | fail _ => exact hkept u u (.inl hu) (.refl u)
      | @run c db' x hadmits hrun =>
        cases x with
        | error e =>
          rcases UploadStmt.run_insert hrun with ⟨-, hdb⟩ | ⟨row, hrow, -⟩
          · exact hkept u u (.inl (hdb ▸ hu)) (.refl u)
          · cases hrow
        | ok row =>
          obtain ⟨hasked, hrows⟩ := asked_of_insert hrun
          rw [Shared.push_db, hrows] at hu
          rcases Table.mem_insertNew.mp hu with hu | ⟨rfl, -⟩
          · exact hkept u u (.inl hu) (.refl u)
          · exact .inr ⟨chunks, hasked ▸ hdescribed'⟩
    · cases hx with
      | fail _ => exact hkept u u (.inl hu) (.refl u)
      | run _ hrun =>
        obtain ⟨u₁, hu₁, hsame⟩ := Stmt.uploads_same (fun n heq => hq ⟨n, heq⟩) hrun u hu
        exact hkept u u₁ (.inl hu₁) hsame

theorem Described.of_same (h : Described d n chunks s) (hbucket : db'.bucket = s.db.bucket) :
    Described d n chunks ⟨db', s.log⟩ := ⟨h.sent, fun bytes hb => h.object bytes (hbucket ▸ hb)⟩

theorem ContentsInv.of_same (hs : ContentsInv d db₀ s) (hkeys : KeysOwned ⟨db', s.log⟩)
    (hrows : db'.file_uploads = s.db.file_uploads) (hbucket : db'.bucket = s.db.bucket)
    (hissued : db'.issued_keys = s.db.issued_keys) : ContentsInv d db₀ ⟨db', s.log⟩ := by
  refine ⟨hkeys, fun u hu => ?_, fun u hu => (hs.rows u ((seen_of_rows hrows).mp hu)).imp_right ?_⟩
  · exact hissued ▸ hs.issued u ((seen_of_rows hrows).mp hu)
  · rintro ⟨chunks, hdescribed⟩
    exact ⟨chunks, hdescribed.of_same hbucket⟩

theorem KeepsContents.of_same {key : String} (hrows : db'.file_uploads = s.db.file_uploads)
    (hbucket : db'.bucket = s.db.bucket) (hparts : db'.multiparts = s.db.multiparts) :
    KeepsContents key s ⟨db', s.log⟩ :=
  ⟨by rw [hparts], fun _ hb => hbucket ▸ hb, fun h u hu => h u ((seen_of_rows hrows).mp hu)⟩

/-- The logic of the bucket, in any regime: others let what is under a key of one's own be.

A statement is sound for it by two lemmas. What it puts or writes down keeps the invariant, as its
precondition says that the key is the process's own and what is recorded is described
(`ContentsInv.effect`). And it leaves the keys of everybody else as they are, since a statement
only ever concerns one key and that one has a single owner (`Stmt.keepsContents`). -/
def contentsLogic (d : Deployment) (db₀ : Database) (G : Regime) : Logic G (store d.platform) where
  inv := ContentsInv d db₀
  rely p s s' := ∀ key, GivenKey p key s.log → GivenKey p key s'.log ∧ KeepsContents key s s'
  pre p _ q s := KeyPre p s q ∧ q.describes d s
  rely_refl _ s key hgiven := ⟨hgiven, .refl key s⟩
  rely_trans h h' key hgiven := ⟨(h' key (h key hgiven).1).1,
    (h key hgiven).2.trans (h' key (h key hgiven).1).2⟩
  sound {p r q s x s'} hs hpre hx := by
    refine ⟨hs.effect hpre.1 hpre.2 hx, fun p' hne key hgiven => ⟨hgiven.mono fun _ => hx.mem, ?_⟩⟩
    exact Stmt.keepsContents hx fun hon => hne (hs.keys.owner p' p key hgiven (hpre.1 key hon))
  stop_sound _ hs :=
    ⟨hs.of_same (hs.keys.of_keeps (fun _ => ⟨id, id, .rfl⟩) rfl) rfl rfl rfl,
      fun _ _ _ hgiven => ⟨hgiven, .of_same rfl rfl rfl⟩⟩
  pass_sound hs :=
    ⟨hs.of_same (hs.keys.of_keeps (fun _ => ⟨id, id, .rfl⟩) rfl) rfl rfl rfl,
      fun _ _ hgiven => ⟨hgiven, .of_same rfl rfl rfl⟩⟩

end Steps

/-! ### An upload and its bytes

An upload goes through three states: nothing under its key, bytes on their way, bytes stored. The
lemmas below say of each statement of an upload which state it leads to, and of the others that
they lead nowhere. -/

/-- `p` has been given the key, and nothing is named by it. So an upload stands when it has drawn
its key: no object, and no row that would have to describe one. -/
structure Clear (p : ℕ) (key : String) (s : State) : Prop where
  given : GivenKey p key s.log
  named : Unnamed key s
  object : ∀ bytes, (key, bytes) ∉ s.db.bucket

/-- These bytes have been handed over for the object to be. -/
structure Writing (p : ℕ) (key : String) (B : List ℕ) (s : State) : Prop extends Clear p key s where
  parts : s.db.multiparts.find? (·.1 == key) = some (key, B)

/-- These bytes are the object. -/
structure Stored (p : ℕ) (key : String) (B : List ℕ) (s : State) : Prop where
  given : GivenKey p key s.log
  object : ∀ bytes, (key, bytes) ∈ s.db.bucket → bytes = B

section Scripts

variable {d : Deployment} {G : Regime} {p : ℕ} {r : Request} {q : Stmt} {s s' : State}
  {db₀ : Database} {key : String} {B bytes : List ℕ} {ε α : Type}

theorem Clear.env (hs : Clear p key s) (he : (contentsLogic d db₀ G).Env p s s') :
    Clear p key s' := by
  obtain ⟨hgiven, hkeeps⟩ := he.rely key hs.given
  exact ⟨hgiven, hkeeps.named hs.named, fun bytes hb => hs.object bytes (hkeeps.object bytes hb)⟩

theorem Writing.env (hs : Writing p key B s) (he : (contentsLogic d db₀ G).Env p s s') :
    Writing p key B s' :=
  ⟨hs.toClear.env he, ((he.rely key hs.given).2.parts).trans hs.parts⟩

theorem Stored.env (hs : Stored p key B s) (he : (contentsLogic d db₀ G).Env p s s') :
    Stored p key B s' := by
  obtain ⟨hgiven, hkeeps⟩ := he.rely key hs.given
  exact ⟨hgiven, fun bytes hb => hs.object bytes (hkeeps.object bytes hb)⟩

theorem givenKey_env (hs : GivenKey p key s.log) (he : (contentsLogic d db₀ G).Env p s s') :
    GivenKey p key s'.log := (he.rely key hs).1

variable {P : Platform}

/-- A statement that writes no row and puts no object. -/
theorem Clear.effect {x : Except Failure q.Reply} (hs : Clear p key s)
    (h : G.Effect (store P) p r q s x s') (hrows : s'.db.file_uploads = s.db.file_uploads)
    (hbucket : s'.db.bucket = s.db.bucket) : Clear p key s' := by
  refine ⟨hs.given.mono fun _ => h.mem, fun u hu => ?_, fun bytes hb => ?_⟩
  · rcases seen_of_effect h hu with hu | hu
    · exact hs.named u hu
    · rw [hrows] at hu
      exact hs.named u (.inl hu)
  · rw [hbucket] at hb
    exact hs.object bytes hb

/-- Nothing is named by a new key. -/
theorem clear_of_generate_key (hs : ContentsInv d db₀ s)
    (h : G.Effect (store P) p r .generate_key s (.ok key) s') : Clear p key s' := by
  have hx := h
  obtain ⟨-, c, db', hrun, rfl⟩ := h.of_ok
  have hgives : generatesKey p key ⟨p, r, s.db, .generate_key, .ok key⟩ := ⟨rfl, rfl⟩
  have hrun' : Stmt.run P p c s.db .generate_key = some (db', .ok key) := hrun
  have hnew := (Stmt.generates hrun' hgives).2.1
  obtain ⟨hrow, hobject, -⟩ := (hs.keys.keys key hnew).keep (Stmt.keepsKey hrun' id)
  refine ⟨givenKey_cons.mpr (.inl hgives), fun u hu => ?_,
    fun bytes hb => hobject (List.mem_map.mpr ⟨_, hb, rfl⟩)⟩
  rcases seen_of_effect hx hu with hu | hu
  · exact fun heq => hnew (heq ▸ hs.issued u hu)
  · exact hrow u hu

theorem Clear.begin_upload (hs : Clear p key s)
    (h : G.Effect (store P) p r (.begin_upload key) s (.ok ()) s') : Writing p key [] s' := by
  have hx := h
  obtain ⟨-, c, db', hrun, rfl⟩ := h.of_ok
  cases hrun
  exact ⟨hs.effect hx rfl rfl, List.find?_cons_of_pos (beq_self_eq_true key)⟩

theorem find_write_self {multiparts : List (String × List ℕ)}
    (h : multiparts.find? (·.1 == key) = some (key, B)) :
    (multiparts.map fun m => if m.1 == key then (key, m.2 ++ bytes) else m).find? (·.1 == key) =
      some (key, B ++ bytes) := by
  induction multiparts with
  | nil => cases h
  | cons m multiparts ih =>
    by_cases hm : (m.1 == key) = true
    · have hfirst : (m :: multiparts).find? (·.1 == key) = some m := List.find?_cons_of_pos hm
      cases hfirst.symm.trans h
      simp
    · have hrest : (m :: multiparts).find? (·.1 == key) = multiparts.find? (·.1 == key) :=
        List.find?_cons_of_neg hm
      rw [List.map_cons, if_neg hm, ← ih (hrest.symm.trans h)]
      exact List.find?_cons_of_neg hm

theorem Writing.write_part (hs : Writing p key B s)
    (h : G.Effect (store P) p r (.write_part key bytes) s (.ok ()) s') :
    Writing p key (B ++ bytes) s' := by
  have hx := h
  obtain ⟨-, c, db', hrun, rfl⟩ := h.of_ok
  cases hrun
  exact ⟨hs.toClear.effect hx rfl rfl, find_write_self hs.parts⟩

theorem Writing.flush_parts (hs : Writing p key B s)
    (h : G.Effect (store P) p r (.flush_parts key) s (.ok ()) s') : Writing p key B s' := by
  have hx := h
  obtain ⟨-, c, db', hrun, rfl⟩ := h.of_ok
  cases hrun
  exact ⟨hs.toClear.effect hx rfl rfl, hs.parts⟩

/-- What is completed is what has been handed over. -/
theorem Writing.put_object (hs : Writing p key B s)
    (h : G.Effect (store P) p r (.put_object key) s (.ok ()) s') : Stored p key B s' := by
  refine ⟨hs.given.mono fun _ => h.mem, fun bytes hb => ?_⟩
  obtain ⟨-, c, db', hrun, rfl⟩ := h.of_ok
  cases hrun
  rcases List.mem_cons.mp hb with heq | hb
  · have hbytes : bytes = s.db.bytes_for key := congrArg Prod.snd heq
    rw [hbytes, Database.bytes_for, hs.parts]
    rfl
  · exact absurd hb (hs.object bytes)

/-! #### The scripts -/

/-- What the loop over a body keeps: the bytes that have come are not too many, and a full head says
what is declared. -/
structure InLoop (p : ℕ) (key : String) (declared : Option String) (limit : ℕ) (B : List ℕ)
    (s : State) : Prop where
  writing : Writing p key B s
  size : B.length ≤ limit
  inspected : SUGGESTED_HEAD_BYTES ≤ B.length → consistent declared B = true

/-- What one chunk has come to. -/
def Took (p : ℕ) (key : String) (declared : Option String) (limit : ℕ) (B : List ℕ) (c : Chunk)
    (y : Except FormError StreamState) (s : State) : Prop :=
  GivenKey p key s.log ∧ ∀ st, y = .ok st → ∃ chunk, c = .ok chunk ∧
    st = streamed (B ++ chunk) ∧ InLoop p key declared limit (B ++ chunk) s

/-- What a stream has come to: the key is still given, and if all is well, the body has arrived in
chunks that are stored behind what was there, and what is there now may be stored. -/
def Streamed (p : ℕ) (key : String) (declared : Option String) (limit : ℕ) (B : List ℕ)
    (body : List Chunk) (y : Except FormError ℕ) (s : State) : Prop :=
  GivenKey p key s.log ∧ ∀ size, y = .ok size → ∃ chunks : List (List ℕ),
    body = chunks.map .ok ∧ size = (B ++ chunks.flatten).length ∧
      InLoop p key declared limit (B ++ chunks.flatten) s ∧
        consistent declared (B ++ chunks.flatten) = true

variable {declared : Option String} {limit : ℕ}

theorem InLoop.env (hs : InLoop p key declared limit B s)
    (he : (contentsLogic d db₀ G).Env p s s') : InLoop p key declared limit B s' :=
  ⟨hs.writing.env he, hs.size, hs.inspected⟩

/-- The leading bytes are inspected where there are enough of them for the first time. -/
theorem consistent_take (declared : Option String) (B : List ℕ) :
    consistent declared (B.take SUGGESTED_HEAD_BYTES) = consistent declared B := by
  rw [consistent, sniff_take]
  rfl

/-- One chunk. -/
theorem wp_stream_chunk_contents (hs : InLoop p key declared limit B s) (c : Chunk) :
    (contentsLogic d db₀ G).wp p r (stream_chunk key declared limit (streamed B) c)
      (Took p key declared limit B c) s := by
  have hthrow : ∀ {e : FormError} {s₁ : State}, GivenKey p key s₁.log →
      (contentsLogic d db₀ G).wp p r (.throw e : Code FormError StreamState)
        (Took p key declared limit B c) s₁ :=
    fun hgiven s₂ he₂ => ⟨givenKey_env hgiven he₂, fun _ heq => by cases heq⟩
  cases c with
  | error e =>
    rw [stream_chunk]
    split <;> exact hthrow hs.writing.given
  | ok chunk =>
    have htotal : (streamed B).written + chunk.length = (B ++ chunk).length :=
      (List.length_append).symm
    rw [stream_chunk]
    simp only [streamed_head, UploadWriter.write, htotal]
    by_cases hlimit : limit < (B ++ chunk).length
    · rw [if_pos hlimit]
      exact hthrow hs.writing.given
    rw [if_neg hlimit, Script.bind_assoc]
    refine Logic.wp_query_bind fun s₁ he₁ => ⟨⟨fun key' heq => ?_, trivial⟩, fun _ s₂ hx₂ _ => ?_,
      fun e s₂ hx₂ _ => hthrow ?_⟩
    · obtain rfl : key = key' := heq
      exact givenKey_env hs.writing.given he₁
    swap
    · exact (givenKey_env hs.writing.given he₁).mono fun _ => hx₂.mem
    have hs₂ := (hs.writing.env he₁).write_part hx₂
    have hret : ∀ {st : StreamState}, st = streamed (B ++ chunk) →
        (SUGGESTED_HEAD_BYTES ≤ (B ++ chunk).length → consistent declared (B ++ chunk) = true) →
        (contentsLogic d db₀ G).wp p r (.ret st : Code FormError StreamState)
          (Took p key declared limit B (.ok chunk)) s₂ := by
      intro st hst hfull s₃ he₃
      have hs₃ := hs₂.env he₃
      refine ⟨hs₃.given, fun st' heq => ⟨chunk, rfl, ?_, hs₃, Nat.le_of_not_lt hlimit, hfull⟩⟩
      cases heq
      exact hst
    have hhead : SUGGESTED_HEAD_BYTES ≤ ((B ++ chunk).take SUGGESTED_HEAD_BYTES).length ↔
        SUGGESTED_HEAD_BYTES ≤ (B ++ chunk).length := by
      rw [List.length_take]
      omega
    have hlength : B.length ≤ (B ++ chunk).length := by simp
    dsimp only [Pure.pure, Script.ret_bind]
    split
    · next hnow =>
      simp only [streamed, hhead, Bool.and_eq_true, Bool.not_eq_true', decide_eq_true_eq,
        decide_eq_false_iff_not] at hnow
      rw [check_bytes_eq, consistent_take]
      split
      · next hyes =>
        refine hret ?_ fun _ => hyes
        rw [streamed, decide_eq_true hnow.2]
      · exact hthrow hs₂.given
    · next hnow =>
      simp only [streamed, hhead, Bool.and_eq_true, Bool.not_eq_true', decide_eq_true_eq,
        decide_eq_false_iff_not, not_and] at hnow
      have hsame : SUGGESTED_HEAD_BYTES ≤ B.length ↔ SUGGESTED_HEAD_BYTES ≤ (B ++ chunk).length :=
        ⟨fun h => h.trans hlength, fun h => by by_contra hshort; exact hnow hshort h⟩
      refine hret ?_ fun hfull => ?_
      · simp only [streamed, hsame]
      · rw [consistent_append (hsame.mpr hfull)]
        exact hs.inspected (hsame.mpr hfull)

/-- **The bytes that have come are the bytes that are there**, chunk by chunk. The induction is on
the chunks that are still to come; what is kept from chunk to chunk is `InLoop`, for the bytes
before. -/
theorem wp_stream_contents (hinv : ContentsInv d db₀ s) (hs : InLoop p key declared limit B s)
    (body : List Chunk) :
    (contentsLogic d db₀ G).wp p r (stream_upload key declared limit body (streamed B))
      (Streamed p key declared limit B body) s := by
  induction body generalizing B s with
  | nil =>
    have hret : consistent declared B = true →
        (contentsLogic d db₀ G).wp p r (.ret B.length : Code FormError ℕ)
          (Streamed p key declared limit B []) s := by
      intro hyes s₁ he₁
      refine ⟨(hs.env he₁).writing.given, fun size heq => ⟨[], rfl, ?_, ?_, ?_⟩⟩
      · cases heq
        simp
      · simpa using hs.env he₁
      · simpa using hyes
    rw [stream_upload, when]
    by_cases hfull : SUGGESTED_HEAD_BYTES ≤ B.length
    · have hinspected : ¬ (!(streamed B).inspected) = true := by
        rw [streamed, decide_eq_true hfull]
        exact Bool.false_ne_true
      rw [if_neg hinspected]
      exact hret (hs.inspected hfull)
    · have hinspect : (!(streamed B).inspected) = true := by
        rw [streamed, decide_eq_false hfull]
        rfl
      have hhead : (streamed B).head = B.take SUGGESTED_HEAD_BYTES := rfl
      rw [if_pos hinspect, hhead, check_bytes_eq, consistent_take]
      split
      · next hyes => exact hret hyes
      · exact fun s₁ he₁ => ⟨(hs.env he₁).writing.given, fun _ heq => by cases heq⟩
  | cons c body ih =>
    rw [stream_upload]
    refine Logic.wp_bind hinv (wp_stream_chunk_contents hs c) (fun st s₁ hinv₁ htook => ?_)
      fun e s₁ _ htook => ⟨htook.1, fun _ heq => by cases heq⟩
    obtain ⟨chunk, rfl, rfl, hs₁⟩ := htook.2 st rfl
    refine Logic.wp_mono (ih hinv₁ hs₁) fun y s₂ _ hstreamed => ⟨hstreamed.1, fun size hsize => ?_⟩
    obtain ⟨chunks, rfl, hrest⟩ := hstreamed.2 size hsize
    rw [List.append_assoc] at hrest
    exact ⟨chunk :: chunks, rfl, hrest⟩

/-- A write is given up by whoever holds its key. -/
theorem wp_give_up_contents {Φ : Except FormError Unit → State → Prop} {e : Failure}
    (hgiven : GivenKey p key s.log) (hΦ : ∀ e s', Φ (.error e) s') :
    (contentsLogic d db₀ G).wp p r (UploadWriter.give_up key e) Φ s := by
  refine Logic.wp_query_bind fun s₁ he₁ => ⟨⟨fun key' heq => ?_, trivial⟩,
    fun _ _ _ _ _ _ => hΦ _ _, fun _ _ _ _ _ _ => hΦ _ _⟩
  obtain rfl : key = key' := heq
  exact givenKey_env hgiven he₁

/-- Completing a write. -/
theorem wp_finish_contents (hs : Writing p key B s) :
    (contentsLogic d db₀ G).wp p r (UploadWriter.finish key d.platform)
      (fun y s' => y = .ok () → Stored p key B s') s := by
  refine Logic.wp_attempt_bind fun s₁ he₁ => ⟨⟨fun _ => False.elim, trivial⟩,
    fun flushed s₂ hx₂ _ => ?_⟩
  have hgiven₂ : GivenKey p key s₂.log := (hs.env he₁).given.mono fun _ => hx₂.mem
  cases flushed with
  | error e =>
    dsimp only
    split
    · exact wp_give_up_contents hgiven₂ fun _ _ heq => by cases heq
    · exact fun _ _ heq => by cases heq
  | ok _ =>
    have hs₂ := (hs.env he₁).flush_parts hx₂
    refine Logic.wp_attempt_bind fun s₃ he₃ => ⟨⟨fun key' heq => ?_, (hs₂.env he₃).named⟩,
      fun y s₄ hx₄ _ => ?_⟩
    · obtain rfl : key = key' := heq
      exact (hs₂.env he₃).given
    cases y with
    | ok _ => exact fun s₅ he₅ _ => ((hs₂.env he₃).put_object hx₄).env he₅
    | error e =>
      exact wp_give_up_contents ((hs₂.env he₃).given.mono fun _ => hx₄.mem)
        fun _ _ heq => by cases heq

/-- The row that says what has been stored. -/
theorem wp_record_contents {n : NewFileUpload} {chunks : List (List ℕ)}
    (hs : Stored p n.object_key chunks.flatten s) (hsent : SentAs d n chunks s.log) :
    (contentsLogic d db₀ G).wp p r (FormService.record_upload n) (fun _ _ => True) s := by
  refine Logic.wp_attempt_bind fun s₁ he₁ => ⟨⟨fun key' heq => ?_, ?_⟩, fun y s₂ hx₂ _ => ?_⟩
  · obtain rfl : n.object_key = key' := heq
    exact (hs.env he₁).given
  · exact ⟨chunks, hsent.mono fun _ => he₁.others.mem, (hs.env he₁).object⟩
  cases y with
  | ok row => exact fun _ _ => trivial
  | error e =>
    exact Logic.wp_attempt_bind fun s₃ he₃ => ⟨⟨fun _ => False.elim, trivial⟩,
      fun _ _ _ _ _ _ => trivial⟩

/-- Statements that have nothing to do with the bucket may be executed at any time. -/
theorem pre_of_bucketless (hq : ∀ key, ¬ q.onKey key) :
    (contentsLogic d db₀ G).pre p r q s := by
  refine ⟨fun key hon => absurd hon (hq key), ?_⟩
  unfold Stmt.describes
  split
  · next key => exact absurd rfl (hq key)
  · next n => exact absurd rfl (hq n.object_key)
  · trivial

/-- Code that has nothing to do with the bucket. -/
theorem wp_of_bucketless {x : Code ε α} (hx : x.Issues fun q => ∀ key, ¬ q.onKey key) :
    (contentsLogic d db₀ G).wp p r x (fun _ _ => True) s := by
  refine Logic.wp_of_does (fun q => ∀ key, ¬ q.onKey key) (fun _ _ => True) (fun _ => True)
    (fun _ => True) (fun _ _ => trivial) (fun hq _ _ => pre_of_bucketless hq)
    (fun _ _ _ _ _ => ⟨trivial, trivial⟩) (fun _ _ => trivial) hx.does trivial

/-- The form that has been found is published. -/
theorem wp_load_published_contents (public_id : String) :
    (contentsLogic d db₀ G).wp p r (FormService.load_published public_id)
      (fun y s' => ∀ form, y = .ok form → form.status = .published ∧ ∃ before,
        ⟨p, r, before, .forms (.find_by_public_id public_id), .ok (some form)⟩ ∈ s'.log) s := by
  refine Logic.wp_query_bind fun s₁ he₁ =>
    ⟨⟨fun _ => False.elim, trivial⟩, fun found s₂ hx₂ _ => ?_,
    fun _ _ _ _ _ _ _ heq => by cases heq⟩
  cases found with
  | none => exact fun _ _ _ heq => by cases heq
  | some form =>
    dsimp only
    split
    · next hpublished =>
      intro s₃ he₃ form' heq
      cases heq
      exact ⟨hpublished, _, he₃.others.mem hx₂.mem_self⟩
    · exact fun _ _ _ heq => by cases heq
    · exact fun _ _ _ heq => by cases heq

/-- **An upload** stores what is sent, and writes down what it has stored. -/
theorem wp_upload_contents (hinv : ContentsInv d db₀ s) (public_id field_key : String)
    (filename declared_type : Option String) (body : List Chunk)
    (hr : r = .upload public_id field_key filename declared_type body) :
    (contentsLogic d db₀ G).wp p r
      (FormService.upload d public_id field_key filename declared_type body)
      (fun _ _ => True) s := by
  subst hr
  unfold FormService.upload
  split
  · exact fun _ _ => trivial
  refine Logic.wp_bind hinv (wp_load_published_contents public_id) (fun form s₁ hinv₁ hform => ?_)
    fun _ _ _ _ => trivial
  obtain ⟨hpublished, before, hfound⟩ := hform form rfl
  refine Logic.wp_query_bind fun s₂ he₂ => ⟨⟨fun _ => False.elim, trivial⟩,
    fun allowed s₃ hx₃ hinv₃ => ?_, fun _ _ _ _ _ _ => trivial⟩
  split
  · exact fun _ _ => trivial
  cases htarget : FormService.upload_target form field_key declared_type with
  | error e => exact fun _ _ => trivial
  | ok target =>
    obtain ⟨field, declared⟩ := target
    refine Logic.wp_query_bind fun s₄ he₄ => ⟨⟨fun _ => False.elim, trivial⟩,
      fun key s₅ hx₅ hinv₅ => ?_, fun _ _ _ _ _ _ => trivial⟩
    have hclear := clear_of_generate_key he₄.inv hx₅
    refine Logic.wp_query_bind fun s₆ he₆ => ⟨⟨fun key' heq => ?_, trivial⟩,
      fun _ s₇ hx₇ hinv₇ => ?_, fun _ _ _ _ _ _ => trivial⟩
    · obtain rfl : key = key' := heq
      exact (hclear.env he₆).given
    have hwriting : InLoop p key (some declared) (effective_limit d field) [] s₇ :=
      ⟨(hclear.env he₆).begin_upload hx₇, Nat.zero_le _, fun hfull => by cases hfull⟩
    have hfound₇ := hx₇.mem (he₆.others.mem (hx₅.mem (he₄.others.mem (hx₃.mem
      (he₂.others.mem hfound)))))
    have hstream := Logic.wp_grows
        (wp_stream_contents (G := G) (r := .upload public_id field_key filename
      declared_type body) hinv₇ hwriting body) fun _ he => he
    refine Logic.wp_bind (Ψ := fun y s' => ∃ z, y = .ok z ∧
      Streamed p key (some declared) (effective_limit d field) [] body z s' ∧
        ∀ e ∈ s₇.log, e ∈ s'.log) hinv₇
      (Logic.wp_result (Logic.wp_mono hstream fun z _ _ h => ⟨z, rfl, h⟩))
      (fun z s₈ hinv₈ hstreamed => ?_) fun _ _ _ _ => trivial
    obtain ⟨_, heq, hstreamed, hgrows⟩ := hstreamed
    cases heq
    cases z with
    | error e =>
      exact Logic.wp_attempt_bind fun s₉ he₉ => ⟨⟨fun key' heq => heq ▸
        givenKey_env hstreamed.1 he₉, trivial⟩, fun _ _ _ _ _ _ => trivial⟩
    | ok size =>
      obtain ⟨chunks, rfl, rfl, hloop, hconsistent⟩ := hstreamed.2 size rfl
      refine Logic.wp_bind hinv₈ (Logic.wp_grows (wp_finish_contents hloop.writing) fun _ he => he)
        (fun _ s₉ _ hfinished => ?_) fun _ _ _ _ => trivial
      have hfound₉ := hfinished.2 _ (hgrows _ hfound₇)
      refine wp_record_contents (hfinished.1 rfl) ⟨?_, rfl, hconsistent⟩
      exact ⟨p, public_id, filename, declared_type, before, form, field, hfound₉, hpublished,
        htarget, rfl, rfl, by dsimp only, hloop.size⟩

/-- **Every request** keeps to the keys it was given. -/
theorem wp_contents (r : Request) (hinv : ContentsInv d db₀ s) :
    (contentsLogic d db₀ G).wp p r (Request.code d r) (fun _ _ => True) s := by
  by_cases hpass : r.isPass
  · exact wp_of_bucketless ((Request.unserved hpass).mono fun q hq key hon => by
      cases q <;> first | exact hon | exact hq trivial)
  by_cases haccounts : r.onAccounts
  · exact wp_of_bucketless ((Request.issues_onAccounts haccounts).mono fun q hq key hon => by
      cases q <;> first | exact hon | exact hq)
  cases hscope : r.scope with
  | some scope =>
    -- A request of an organization stays within it, and the bucket is nobody's in particular.
    refine Logic.wp_of_ofPre (wp_within r) fun q s _ hwithin => ?_
    have hq := hwithin scope hscope
    refine pre_of_bucketless fun key hon => ?_
    cases q <;> first | exact hon | exact hq
  | none =>
    cases r with
    | upload public_id field_key filename declared_type body =>
      exact wp_upload_contents hinv public_id field_key filename declared_type body rfl
    | submit public_id payload client referer =>
      exact wp_of_bucketless ((submit_free public_id payload client referer).mono
        fun _ hq => hq.not_onKey)
    | reap_abandoned_uploads => exact wp_of_bucketless (reap_keyless d)
    | create_organization name actor_id =>
      exact wp_of_bucketless (OrganizationService.create_issues name actor_id (fun _ => id)
        (fun _ _ => id) (fun _ _ _ => id) (fun _ _ _ => id) fun _ => id)
    | deliver_webhooks | dispatch_outbox => exact absurd trivial hpass
    | login _ _ _ | refresh _ | authenticate _ | logout _ | logout_all _ | change_password _ _ _
    | reset_password _ _ | request_password_reset _ | resend_verification _ | verify_email _
    | administer _ _ | as_admin _ _ | unlock_account _ | revoke_account_sessions _
    | grant_role_by_email _ _ | open_session _ _ | revoke_others _ _ =>
      exact absurd trivial haccounts
    | _ => cases hscope

end Scripts

/-! ### Every run

What the ledger describes at one time is described at every later one, for the invariant holds of
all states in between. This is the form in which other modules use the result. -/

section Run

variable {d : Deployment} {db : Database} {w w' : World} {u : FileUploadRecord}

theorem contents_safe (hdb : KeysIssued db) :
    (contentsLogic d db anything).Safe (fun _ _ _ _ => True) (World.start db) := by
  have hseen : ∀ {u}, Seen u (World.start db).shared → u ∈ db.file_uploads.rows := by
    rintro u (hu | ⟨e, he, -⟩)
    · exact hu
    · exact absurd he List.not_mem_nil
  refine .start ⟨⟨hdb, ?_, ?_⟩, fun u hu => ?_, fun u hu => .inl ⟨u, hseen hu, .refl u⟩⟩
  · rintro p key ⟨e, he, -⟩
    exact absurd he List.not_mem_nil
  · rintro p p' key ⟨e, he, -⟩
    exact absurd he List.not_mem_nil
  · by_contra hnew
    exact (hdb u.object_key hnew).row u (hseen hu) rfl

theorem contentsSafe_of_reaches (hdb : KeysIssued db) (h : Reaches d anything (World.start db) w) :
    (contentsLogic d db anything).Safe (fun _ _ _ _ => True) w :=
  Logic.safe_of_reaches (fun _ r _ _ hs _ => wp_contents r hs) (contents_safe hdb) h

theorem described_of_reaches (hdb : KeysIssued db) (h : Reaches d anything (World.start db) w)
    (hu : u ∈ w.shared.db.file_uploads.rows) (hnew : ∀ u₀ ∈ db.file_uploads.rows, ¬ u₀.Same u) :
    ∃ chunks, Described d u.asked chunks w.shared :=
  ((contentsSafe_of_reaches hdb h).inv.rows u (.inl hu)).resolve_left
    fun hold => hold.elim fun u₀ hu₀ => hnew u₀ hu₀.1 hu₀.2

/-- What the ledger describes stays as it is described. -/
theorem Described.of_reaches {chunks : List (List ℕ)} (hdb : KeysIssued db)
    (h : Reaches d anything (World.start db) w) (hu : u ∈ w.shared.db.file_uploads.rows)
    (hdescribed : Described d u.asked chunks w.shared) (h' : Reaches d anything w w') :
    Described d u.asked chunks w'.shared := by
  refine (Logic.inv_of_reaches (I := fun s => Seen u s ∧ Described d u.asked chunks s)
    (fun _ r _ _ hs _ => wp_contents r hs) (contentsSafe_of_reaches hdb h)
    ⟨.inl hu, hdescribed⟩ ?_ ?_ ?_ h').2
  · exact fun _ hpre hs hx => ⟨hs.1.effect hx, hs.2.effect_of_seen hs.1 hpre.2 hx⟩
  · exact fun _ hs => ⟨(seen_of_rows rfl).mpr hs.1, hs.2.of_same rfl⟩
  · exact fun hs => ⟨(seen_of_rows rfl).mpr hs.1, hs.2.of_same rfl⟩

/-- **The bytes in the bucket are those a client sent, as the ledger describes them.** Whatever
comes into the ledger says what some client has sent for that field of a form that was published
then, and from then on nothing else is ever in the bucket under its key. -/
theorem stored_as_sent (hdb : KeysIssued db) (h : Reaches d anything (World.start db) w)
    (hu : u ∈ w.shared.db.file_uploads.rows) (hnew : ∀ u₀ ∈ db.file_uploads.rows, ¬ u₀.Same u) :
    ∃ chunks, SentAs d u.asked chunks w.shared.log ∧
      ∀ w', Reaches d anything w w' → ∀ bytes, (u.object_key, bytes) ∈ w'.shared.db.bucket →
        bytes = chunks.flatten := by
  obtain ⟨chunks, hdescribed⟩ := described_of_reaches hdb h hu hnew
  exact ⟨chunks, hdescribed.sent, fun _ h' => (hdescribed.of_reaches hdb h hu h').object⟩

/-- What has been uploaded is there as it was sent. -/
theorem stored_as_sent_uploadFile :
    let w := Deployment.sample.play anything uploadFile formWithFile
    w.shared.db.bucket = [("k1", [104, 105])] ∧ ∃ u ∈ w.shared.db.file_uploads.rows,
      u.object_key = "k1" ∧ ∃ chunks, SentAs .sample u.asked chunks w.shared.log ∧
        chunks.flatten = [104, 105] := by
  intro w
  have hbucket : w.shared.db.bucket = [("k1", [104, 105])] := by decide +kernel
  have hrow : w.shared.db.file_uploads.rows.map (·.object_key) = ["k1"] := by decide +kernel
  obtain ⟨u, hu, hkey⟩ := List.mem_map.mp (hrow ▸ List.mem_singleton_self "k1")
  refine ⟨hbucket, u, hu, hkey, ?_⟩
  obtain ⟨chunks, hsent, hbytes⟩ := stored_as_sent keysIssued_formWithFile
    (Deployment.sample.reaches_play anything uploadFile formWithFile) hu
    fun u₀ hu₀ => absurd hu₀ List.not_mem_nil
  refine ⟨chunks, hsent, (hbytes w .refl _ ?_).symm⟩
  rw [hkey, hbucket]
  exact List.mem_singleton_self _

end Run

end SubmitSnap
