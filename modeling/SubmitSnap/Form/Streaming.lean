import SubmitSnap.Request
import SubmitSnap.Interleave.Alone

/-!
# Streaming: an upload, chunk by chunk

The loop over a request body counts bytes, collects the leading ones and inspects them once, while
the chunks fall as they like. What it knows in between depends on the bytes that have come and not
on how they were cut (`streamed`), so neither does what it makes of a body.

The route has a limit of its own, which ends the stream in front of the first chunk that goes past
it. The loop then has to guess from the bytes it has accepted which limit was hit, and is right only
if the chunks before that one reach the limit of the field.

## The argument

The state of the loop is a function of the bytes that have come. One chunk takes `streamed B` to
`streamed (B ++ chunk)` or ends the upload, and which of the two it is depends on `B ++ chunk`
alone (`alone_stream_chunk`). Induction on the chunks then removes the cuts altogether. The
inspection is the delicate part: it takes place once, when the head is full for the first time,
and the head may be filled by a chunk that goes far past it. It does not matter, since a signature
is shorter than the head and what comes after it is not looked at (`sniff_take`,
`consistent_append`).

For the limit of the route there is no such argument, as the answer does depend on the cuts. What
the loop is given is the chunks that fit in front of the first one that does not (`within`), and
an error in its place; the exact condition compares the length of that prefix with the limit that
counts.

## Main definitions

* `stored_upload` — a body, from the opening of its upload to its completion.
* `limited_body` — what the route's limit lets through.

## Main results

* `sniff_take` — the leading bytes say what the whole file says.
* `stored_upload_iff` — what is stored does not depend on the chunks.
* `upload_too_large_iff` — when an oversized upload is reported as too large.
-/

namespace SubmitSnap

open Interleave
open Interleave.Script (ret when mapError result)

/-! ### The leading bytes

All signatures are shorter than the head, so a file and its head are taken for the same. -/

/-- A signature that is not longer than the head starts the head if it starts the file. -/
theorem isPrefixOf_take {sig B : List ℕ} {n : ℕ} (h : sig.length ≤ n) :
    sig.isPrefixOf (B.take n) = sig.isPrefixOf B := by
  rw [Bool.eq_iff_iff, List.isPrefixOf_iff_prefix, List.isPrefixOf_iff_prefix]
  exact ⟨fun hp => hp.trans (B.take_prefix n), fun hp => List.prefix_take_iff.mpr ⟨hp, h⟩⟩

/-- **The leading bytes say what the whole file says.** -/
theorem sniff_take (B : List ℕ) : sniff (B.take SUGGESTED_HEAD_BYTES) = sniff B := by
  have hwebp : ((B.take SUGGESTED_HEAD_BYTES).drop 8).take 4 = (B.drop 8).take 4 := by
    rw [List.drop_take, List.take_take]
    rfl
  unfold sniff
  rw [hwebp]
  simp (disch := decide) only [isPrefixOf_take]

/-- Whether the bytes may be what the client has declared. -/
def consistent (declared : Option String) (B : List ℕ) : Bool :=
  declared.all fun declared => (sniff B).is_consistent_with declared

/-- Once the head is full, what comes after it does not matter. -/
theorem consistent_append {declared : Option String} {B rest : List ℕ}
    (h : SUGGESTED_HEAD_BYTES ≤ B.length) :
    consistent declared (B ++ rest) = consistent declared B := by
  rw [consistent, ← sniff_take, List.take_append_of_le_length h, sniff_take]
  rfl

theorem check_bytes_eq (B : List ℕ) (declared : Option String) :
    check_bytes B declared =
      if consistent declared B then .ok ()
      else .error (.file_rejected ("the contents do not look like " ++ declared.getD "")) := by
  cases declared with
  | none => rfl
  | some declared => rfl

/-! ### What the loop knows -/

/-- What the loop knows when these bytes have come. -/
def streamed (B : List ℕ) : StreamState :=
  ⟨B.length, B.take SUGGESTED_HEAD_BYTES, SUGGESTED_HEAD_BYTES ≤ B.length⟩

/-- The database when these bytes have been handed over. -/
def Database.append (db : Database) (key : String) (bytes : List ℕ) : Database :=
  { db with
    multiparts := db.multiparts.map fun m => if m.1 == key then (key, m.2 ++ bytes) else m }

theorem Database.append_append (db : Database) (key : String) (a b : List ℕ) :
    (db.append key a).append key b = db.append key (a ++ b) := by
  unfold Database.append
  congr 1
  rw [List.map_map]
  refine List.map_congr_left fun m _ => ?_
  by_cases h : m.1 = key
  · simp [h]
  · simp [h]

theorem Database.append_nil (db : Database) (key : String) : db.append key [] = db := by
  have hmap : (db.multiparts.map fun m => if m.1 == key then (key, m.2 ++ []) else m) =
      db.multiparts := by
    refine (List.map_congr_left fun m _ => ?_).trans db.multiparts.map_id
    by_cases h : m.1 == key
    · rw [if_pos h, List.append_nil]
      exact Prod.ext (beq_iff_eq.mp h).symm rfl
    · exact if_neg h
  unfold Database.append
  rw [hmap]

section Loop

variable {P : Platform} {p : ℕ} {key : String} {declared : Option String} {limit : ℕ}
  {cs : ℕ → Choice} {db : Database} {B chunk : List ℕ}

/-- The head is filled across the chunks. -/
theorem streamed_head (B chunk : List ℕ) :
    (streamed B).head ++ chunk.take (SUGGESTED_HEAD_BYTES - (streamed B).head.length) =
      (B ++ chunk).take SUGGESTED_HEAD_BYTES := by
  have hrest : SUGGESTED_HEAD_BYTES - (streamed B).head.length =
      SUGGESTED_HEAD_BYTES - B.length := by
    rw [streamed, List.length_take]
    omega
  rw [hrest, List.take_append]
  rfl

/-- **One chunk**, whatever has come before it. -/
theorem alone_stream_chunk :
    (store P).alone p (stream_chunk key declared limit (streamed B) (.ok chunk)) cs db =
      if limit < (B ++ chunk).length then some (.error (.file_too_large limit), db, cs)
      else if B.length < SUGGESTED_HEAD_BYTES ∧ SUGGESTED_HEAD_BYTES ≤ (B ++ chunk).length ∧
          consistent declared (B ++ chunk) = false then
        some (.error (.file_rejected ("the contents do not look like " ++ declared.getD "")),
          db.append key chunk, fun n => cs (n + 1))
      else some (.ok (streamed (B ++ chunk)), db.append key chunk, fun n => cs (n + 1)) := by
  have htotal : (streamed B).written + chunk.length = (B ++ chunk).length :=
    (List.length_append).symm
  have hhead : SUGGESTED_HEAD_BYTES ≤ ((B ++ chunk).take SUGGESTED_HEAD_BYTES).length ↔
      SUGGESTED_HEAD_BYTES ≤ (B ++ chunk).length := by
    rw [List.length_take]
    omega
  have hconsistent : consistent declared ((B ++ chunk).take SUGGESTED_HEAD_BYTES) =
      consistent declared (B ++ chunk) := by
    rw [consistent, sniff_take]
    rfl
  rw [stream_chunk]
  simp only [streamed_head, UploadWriter.write, htotal]
  by_cases hlimit : limit < (B ++ chunk).length
  · rw [if_pos hlimit, if_pos hlimit]
    rfl
  rw [if_neg hlimit, if_neg hlimit]
  have hwrite : (store P).alone p
      (do ask (.write_part key chunk); pure (B ++ chunk).length : Code FormError ℕ) cs db =
        some (.ok (B ++ chunk).length, db.append key chunk, fun n => cs (n + 1)) := rfl
  rw [Store.alone_bind, hwrite, Option.bind_some]
  by_cases hnow : B.length < SUGGESTED_HEAD_BYTES ∧ SUGGESTED_HEAD_BYTES ≤ (B ++ chunk).length
  · -- The head is complete for the first time.
    have hinspect : (!(streamed B).inspected && decide (SUGGESTED_HEAD_BYTES ≤
        ((B ++ chunk).take SUGGESTED_HEAD_BYTES).length)) = true := by
      simp only [streamed, hhead, decide_eq_true hnow.2, decide_eq_false (Nat.not_le.mpr hnow.1)]
      rfl
    have hdone : streamed (B ++ chunk) =
        ⟨(B ++ chunk).length, (B ++ chunk).take SUGGESTED_HEAD_BYTES, true⟩ := by
      rw [streamed, decide_eq_true hnow.2]
    simp only [hinspect, if_true]
    rw [check_bytes_eq, hconsistent, hdone]
    cases consistent declared (B ++ chunk) with
    | true =>
      rw [if_pos rfl, if_neg fun h => Bool.noConfusion h.2.2]
      rfl
    | false =>
      rw [if_neg Bool.false_ne_true, if_pos ⟨hnow.1, hnow.2, rfl⟩]
      rfl
  · have hinspect : (!(streamed B).inspected && decide (SUGGESTED_HEAD_BYTES ≤
        ((B ++ chunk).take SUGGESTED_HEAD_BYTES).length)) = false := by
      simp only [streamed, hhead]
      by_contra htrue
      simp at htrue
      exact hnow (by simpa using htrue)
    have hsame : (streamed B).inspected = (streamed (B ++ chunk)).inspected := by
      simp only [streamed, List.length_append] at hnow ⊢
      rw [decide_eq_decide]
      omega
    rw [if_neg fun h => hnow ⟨h.1, h.2.1⟩]
    simp only [hinspect]
    rw [hsame]
    rfl

/-- The bytes may be stored: they are not too many, and a full head that has not been inspected
before says what is declared. -/
def Acceptable (declared : Option String) (limit : ℕ) (B T : List ℕ) : Prop :=
  T.length ≤ limit ∧ (B.length < SUGGESTED_HEAD_BYTES → SUGGESTED_HEAD_BYTES ≤ T.length →
    consistent declared T = true)

/-- One chunk that is accepted. -/
theorem alone_stream_chunk_of_acceptable (h : Acceptable declared limit B (B ++ chunk)) :
    (store P).alone p (stream_chunk key declared limit (streamed B) (.ok chunk)) cs db =
      some (.ok (streamed (B ++ chunk)), db.append key chunk, fun n => cs (n + 1)) := by
  rw [alone_stream_chunk, if_neg (Nat.not_lt.mpr h.1), if_neg]
  rintro ⟨hshort, hfull, hno⟩
  rw [h.2 hshort hfull] at hno
  cases hno

/-- What is acceptable in the end is acceptable after the first chunk, and from there. -/
theorem acceptable_append {rest : List ℕ} :
    Acceptable declared limit B (B ++ chunk ++ rest) ↔
      Acceptable declared limit B (B ++ chunk) ∧
        Acceptable declared limit (B ++ chunk) (B ++ chunk ++ rest) := by
  have hlength : (B ++ chunk).length ≤ (B ++ chunk ++ rest).length := by simp
  have hlength' : B.length ≤ (B ++ chunk).length := by simp
  constructor
  · rintro ⟨hlimit, hhead⟩
    refine ⟨⟨hlength.trans hlimit, fun hshort hfull => ?_⟩, hlimit, fun hshort hfull => ?_⟩
    · exact (consistent_append hfull).symm.trans (hhead hshort (hfull.trans hlength))
    · exact hhead (hlength'.trans_lt hshort) hfull
  · rintro ⟨⟨-, hchunk⟩, hlimit, hrest⟩
    refine ⟨hlimit, fun hshort hfull => ?_⟩
    by_cases hnow : SUGGESTED_HEAD_BYTES ≤ (B ++ chunk).length
    · rw [consistent_append hnow]
      exact hchunk hshort hnow
    · exact hrest (Nat.lt_of_not_le hnow) hfull

/-- **Acceptable chunks** are written, however they are cut, and the loop goes on. -/
theorem alone_stream_upload_of_acceptable {chunks : List (List ℕ)} {tail : List Chunk}
    (h : Acceptable declared limit B (B ++ chunks.flatten)) :
    (store P).alone p (stream_upload key declared limit (chunks.map .ok ++ tail) (streamed B))
        cs db =
      (store P).alone p (stream_upload key declared limit tail (streamed (B ++ chunks.flatten)))
        (fun n => cs (n + chunks.length)) (db.append key chunks.flatten) := by
  induction chunks generalizing B cs db with
  | nil =>
    rw [List.flatten_nil, List.append_nil, db.append_nil]
    rfl
  | cons chunk chunks ih =>
    rw [List.flatten_cons, ← List.append_assoc] at h ⊢
    obtain ⟨hchunk, hrest⟩ := acceptable_append.mp h
    rw [List.map_cons, List.cons_append, stream_upload, Store.alone_bind,
      alone_stream_chunk_of_acceptable hchunk, Option.bind_some]
    refine (ih hrest).trans ?_
    rw [db.append_append]
    rfl

/-- **Other chunks** are refused, as too many if nothing is wrong with the head. -/
theorem alone_stream_upload_of_not {chunks : List (List ℕ)} (key : String) (tail : List Chunk)
    (cs : ℕ → Choice) (db : Database) (hB : B.length ≤ limit)
    (h : ¬ Acceptable declared limit B (B ++ chunks.flatten)) :
    ∃ e db' rest, (store P).alone p
        (stream_upload key declared limit (chunks.map .ok ++ tail) (streamed B)) cs db =
        some (.error e, db', rest) ∧
      ((SUGGESTED_HEAD_BYTES ≤ (B ++ chunks.flatten).length →
        consistent declared (B ++ chunks.flatten) = true) → e = .file_too_large limit) := by
  induction chunks generalizing B cs db with
  | nil =>
    refine absurd ⟨?_, fun hshort hfull => ?_⟩ h
    · simpa using hB
    · simp at hfull
      omega
  | cons chunk chunks ih =>
    rw [List.flatten_cons, ← List.append_assoc] at h ⊢
    rw [List.map_cons, List.cons_append, stream_upload, Store.alone_bind]
    by_cases hchunk : Acceptable declared limit B (B ++ chunk)
    · rw [alone_stream_chunk_of_acceptable hchunk, Option.bind_some]
      exact ih _ _ hchunk.1 fun hrest => h (acceptable_append.mpr ⟨hchunk, hrest⟩)
    · rw [alone_stream_chunk]
      by_cases hlimit : limit < (B ++ chunk).length
      · rw [if_pos hlimit]
        exact ⟨_, _, _, rfl, fun _ => rfl⟩
      · have hno : B.length < SUGGESTED_HEAD_BYTES ∧
            SUGGESTED_HEAD_BYTES ≤ (B ++ chunk).length ∧
              consistent declared (B ++ chunk) = false := by
          by_contra hyes
          refine hchunk ⟨Nat.le_of_not_lt hlimit, fun hshort hfull => ?_⟩
          exact (Bool.eq_false_or_eq_true _).resolve_right fun hf => hyes ⟨hshort, hfull, hf⟩
        rw [if_neg hlimit, if_pos hno]
        refine ⟨_, _, _, rfl, fun hyes => ?_⟩
        have hhead := hyes (hno.2.1.trans (by simp))
        rw [consistent_append hno.2.1, hno.2.2] at hhead
        cases hhead

/-- The end of a body: a head that is not full is inspected now. -/
theorem alone_stream_upload_nil :
    (store P).alone p (stream_upload key declared limit [] (streamed B)) cs db =
      if B.length < SUGGESTED_HEAD_BYTES ∧ consistent declared B = false then
        some (.error (.file_rejected ("the contents do not look like " ++ declared.getD "")),
          db, cs)
      else some (.ok B.length, db, cs) := by
  have hconsistent : consistent declared (B.take SUGGESTED_HEAD_BYTES) = consistent declared B := by
    rw [consistent, sniff_take]
    rfl
  rw [stream_upload, Store.alone_bind, when]
  by_cases hshort : B.length < SUGGESTED_HEAD_BYTES
  · have hinspect : (!(streamed B).inspected) = true := by
      rw [streamed, decide_eq_false (Nat.not_le.mpr hshort)]
      rfl
    rw [if_pos hinspect, check_bytes_eq]
    change ((store P).alone p (FormService.require (if consistent declared (B.take _) = true then _
      else _)) cs db).bind _ = _
    rw [hconsistent]
    cases consistent declared B with
    | true =>
      rw [if_pos rfl, if_neg fun h => Bool.noConfusion h.2]
      rfl
    | false =>
      rw [if_neg Bool.false_ne_true, if_pos ⟨hshort, rfl⟩]
      rfl
  · have hinspect : ¬ (!(streamed B).inspected) = true := by
      rw [streamed, decide_eq_true (Nat.le_of_not_lt hshort)]
      exact Bool.false_ne_true
    rw [if_neg hinspect, if_neg fun h => hshort h.1]
    rfl

end Loop

/-! ### A whole upload -/

/-- A body, from the opening of its upload to its completion. -/
def stored_upload (P : Platform) (key : String) (declared : Option String) (limit : ℕ)
    (body : List Chunk) : Code FormError ℕ := do
  ask (.begin_upload key)
  let size ← stream_upload key declared limit body ⟨0, [], false⟩
  UploadWriter.finish key P
  return size

section Whole

variable {P : Platform} {p : ℕ} {key : String} {declared : Option String} {limit : ℕ}
  {cs : ℕ → Choice} {db : Database} {B : List ℕ}

/-- What has been handed over to a write that has just been opened. -/
theorem Database.bytes_for_append :
    ({ db with multiparts := (key, []) :: db.multiparts }.append key B).bytes_for key = B := by
  simp [Database.append, Database.bytes_for]

/-- Completing an upload. -/
theorem alone_finish :
    (store P).alone p (UploadWriter.finish key P) cs db =
      some (.ok (), { db with
        bucket := (key, db.bytes_for key) :: db.bucket
        multiparts := db.multiparts.filter (·.1 != key) }, fun n => cs (n + 2)) :=
  rfl

/-- **Chunking does not matter.** An upload succeeds if and only if the bytes are not too many and
their head may be what the client has declared, however they are cut; and then the object holds
these bytes. -/
theorem stored_upload_iff (chunks : List (List ℕ)) :
    ∃ y db' rest,
      (store P).alone p (stored_upload P key declared limit (chunks.map .ok)) cs db =
        some (y, db', rest) ∧
      ((∃ size, y = .ok size) ↔ chunks.flatten.length ≤ limit ∧
        ∀ media_type ∈ declared,
          (sniff (chunks.flatten.take SUGGESTED_HEAD_BYTES)).is_consistent_with media_type = true) ∧
      (∀ size, y = .ok size → size = chunks.flatten.length ∧
        db'.bucket = (key, chunks.flatten) :: db.bucket) ∧
      sniff (chunks.flatten.take SUGGESTED_HEAD_BYTES) = sniff chunks.flatten := by
  have hdeclared : (∀ media_type ∈ declared,
      (sniff (chunks.flatten.take SUGGESTED_HEAD_BYTES)).is_consistent_with media_type = true) ↔
      consistent declared chunks.flatten = true := by
    rw [sniff_take, consistent]
    cases declared <;> simp
  rw [hdeclared]
  obtain ⟨opened, hopened⟩ : ∃ opened : Database,
      opened = { db with multiparts := (key, []) :: db.multiparts } := ⟨_, rfl⟩
  have hopen : (store P).run p (.begin_upload key) (cs 0) db = some (opened, .ok ()) := by
    rw [hopened]
    rfl
  have hstart : (⟨0, [], false⟩ : StreamState) = streamed [] := rfl
  have hbody : (chunks.map Except.ok : List Chunk) = chunks.map .ok ++ [] :=
    (List.append_nil _).symm
  rw [stored_upload, Store.alone_query_bind hopen, hstart, hbody, Store.alone_bind]
  by_cases haccept : Acceptable declared limit [] ([] ++ chunks.flatten)
  · rw [alone_stream_upload_of_acceptable haccept, alone_stream_upload_nil, List.nil_append]
    by_cases hhead : consistent declared chunks.flatten = true
    · rw [if_neg fun h => by simp [hhead] at h, Option.bind_some]
      dsimp only
      rw [Store.alone_bind, alone_finish]
      refine ⟨_, _, _, rfl, ⟨fun _ => ⟨haccept.1, hhead⟩, fun _ => ⟨_, rfl⟩⟩, fun size hsize => ?_,
        sniff_take _⟩
      cases hsize
      rw [hopened, Database.bytes_for_append]
      exact ⟨rfl, rfl⟩
    · have hshort : chunks.flatten.length < SUGGESTED_HEAD_BYTES := by
        by_contra hfull
        exact hhead (haccept.2 (by decide) (Nat.le_of_not_lt hfull))
      rw [if_pos ⟨hshort, Bool.eq_false_iff.mpr hhead⟩]
      exact ⟨_, _, _, rfl, ⟨nofun, fun h => absurd h.2 hhead⟩, nofun, sniff_take _⟩
  · obtain ⟨e, db', rest, hrun, -⟩ := alone_stream_upload_of_not (P := P) (p := p) key []
      (fun n => cs (n + 1)) opened (Nat.zero_le limit) haccept
    rw [hrun]
    refine ⟨.error e, db', rest, rfl, ⟨nofun, fun ⟨hlimit, hhead⟩ => ?_⟩, nofun, sniff_take _⟩
    exact absurd ⟨hlimit, fun _ _ => hhead⟩ haccept

end Whole

/-! ### Too many bytes

The error of the route's limit arrives as an item of the body. The loop cannot tell it from any
other error and goes by what it has accepted so far, which is a number of whole chunks. -/

/-- The chunks in front of the first one that goes past `max`, when `seen` bytes have come
before. -/
def within (max : ℕ) : ℕ → List (List ℕ) → List (List ℕ)
  | _, [] => []
  | seen, chunk :: chunks =>
    if max < seen + chunk.length then [] else chunk :: within max (seen + chunk.length) chunks

/-- `RequestBodyLimitLayer`, for a body without a declared length: an error takes the place of the
first chunk that goes past the limit. -/
def limited_body (max : ℕ) (e : Failure) (chunks : List (List ℕ)) : List Chunk :=
  (within max 0 chunks).map .ok ++ if max < chunks.flatten.length then [.error e] else []

theorem within_eq_self {max seen : ℕ} {chunks : List (List ℕ)}
    (h : seen + chunks.flatten.length ≤ max) : within max seen chunks = chunks := by
  induction chunks generalizing seen with
  | nil => rfl
  | cons chunk chunks ih =>
    rw [List.flatten_cons, List.length_append] at h
    rw [within, if_neg (by omega), ih (by omega)]

/-- What comes in front of the cut begins the body. -/
theorem flatten_within_prefix (max seen : ℕ) (chunks : List (List ℕ)) :
    (within max seen chunks).flatten <+: chunks.flatten := by
  induction chunks generalizing seen with
  | nil => exact List.prefix_refl _
  | cons chunk chunks ih =>
    rw [within]
    split
    · exact List.nil_prefix
    · exact (List.prefix_append_right_inj chunk).mpr (ih _)

/-- The upload of a file that has come as far as its body. -/
structure UploadAccepted (d : Deployment) (public_id field_key : String)
    (declared_type : Option String) (cs : ℕ → Choice) (db : Database) (field : FieldDefinition)
    (declared : String) : Prop where
  storage : d.config.storage_enabled = true
  target : ∃ form, db.forms.rows.find? (fun f => f.public_id == public_id) = some form ∧
    form.status = .published ∧ FormService.upload_target form field_key declared_type =
      .ok (field, declared)
  /-- The rate limiter lets it pass. -/
  allowed : (cs 1).id = 0
  /-- The object gets a new key. -/
  fresh : (cs 2).text ∉ db.issued_keys

/-- The smaller one of the limits of the field and of the instance. -/
def effective_limit (d : Deployment) (field : FieldDefinition) : ℕ :=
  min (field.max_bytes.getD d.config.upload_max_bytes) d.config.upload_max_bytes

section Oversized

variable {d : Deployment} {p : ℕ} {public_id field_key : String}
  {filename declared_type : Option String} {cs : ℕ → Choice} {db : Database}
  {field : FieldDefinition} {declared : String} {chunks : List (List ℕ)}

/-- **A body that is refused** decides the answer. -/
theorem alone_upload_of_refused (filename : Option String)
    (h : UploadAccepted d public_id field_key declared_type cs db field declared)
    {body : List Chunk} {e : FormError}
    (hbody : ∀ key cs' db', ∃ db'' rest, (store d.platform).alone p
      (stream_upload key (some declared) (effective_limit d field) body (streamed [])) cs' db' =
        some (.error e, db'', rest)) :
    ∃ db' rest, (store d.platform).alone p
      (FormService.upload d public_id field_key filename declared_type body) cs db =
        some (.error e, db', rest) := by
  obtain ⟨form, hform, hpublished, htarget⟩ := h.target
  have hfind : (store d.platform).run p (.forms (.find_by_public_id public_id)) (cs 0) db =
      some (db, .ok (some form)) := by
    rw [← hform]
    rfl
  have hload : (store d.platform).alone p (FormService.load_published public_id) cs db =
      some (.ok form, db, fun n => cs (n + 1)) := by
    rw [FormService.load_published, Store.alone_query_bind hfind]
    simp only [hpublished]
    rfl
  have hcheck : (store d.platform).run p (.check_key form.id) (cs 1) db = some (db, .ok true) := by
    change some (db, Except.ok ((cs 1).id == 0)) = _
    rw [h.allowed]
    rfl
  obtain ⟨db₁, hkey⟩ : ∃ db₁, (store d.platform).run p .generate_key (cs 2) db =
      some (db₁, .ok (cs 2).text) := ⟨_, if_neg h.fresh⟩
  obtain ⟨db₂, hopen⟩ : ∃ db₂, (store d.platform).run p (.begin_upload (cs 2).text) (cs 3) db₁ =
      some (db₂, .ok ()) := ⟨_, rfl⟩
  obtain ⟨db₃, rest, hstream⟩ := hbody (cs 2).text (fun n => cs (n + 4)) db₂
  rw [FormService.upload, if_neg (by simp [h.storage]), Store.alone_bind, hload, Option.bind_some]
  dsimp only
  rw [Store.alone_query_bind hcheck, if_neg (by simp), htarget]
  change ∃ db' rest, (store d.platform).alone p (ask .generate_key >>= _) _ _ = _
  rw [Store.alone_query_bind hkey, Store.alone_query_bind hopen, Store.alone_bind,
    Store.alone_result]
  change ∃ db' rest, (((store d.platform).alone p (stream_upload (cs 2).text (some declared)
    (effective_limit d field) body (streamed [])) (fun n => cs (n + 4)) db₂).map _).bind _ = _
  rw [hstream]
  exact ⟨_, _, rfl⟩

/-- What becomes of an oversized body that the route's limit may cut. -/
theorem alone_stream_upload_limited {limit : ℕ} (max : ℕ) (chunks : List (List ℕ))
    (hbig : limit < chunks.flatten.length)
    (hhead : consistent (some declared) chunks.flatten = true) (e : Failure) (key : String)
    (cs : ℕ → Choice) (db : Database) :
    ∃ db' rest, (store d.platform).alone p
      (stream_upload key (some declared) limit (limited_body max e chunks) (streamed [])) cs db =
        some (.error (if chunks.flatten.length ≤ max ∨ limit ≤ (within max 0 chunks).flatten.length
          then .file_too_large limit else .internal e), db', rest) := by
  rw [limited_body]
  by_cases hcut : max < chunks.flatten.length
  · -- The cut leaves a body that begins like the whole one.
    obtain ⟨rest, hrest⟩ := flatten_within_prefix max 0 chunks
    have hfull : SUGGESTED_HEAD_BYTES ≤ (within max 0 chunks).flatten.length →
        consistent (some declared) (within max 0 chunks).flatten = true := by
      intro hfull
      rw [← consistent_append hfull, hrest]
      exact hhead
    rw [if_pos hcut]
    by_cases haccept : Acceptable (some declared) limit [] ([] ++ (within max 0 chunks).flatten)
    · have hwritten : (streamed (within max 0 chunks).flatten).written =
          (within max 0 chunks).flatten.length := rfl
      rw [alone_stream_upload_of_acceptable haccept, stream_upload, stream_chunk, List.nil_append,
        hwritten]
      by_cases hreached : limit ≤ (within max 0 chunks).flatten.length
      · rw [if_pos hreached, if_pos (.inr hreached)]
        exact ⟨_, _, rfl⟩
      · rw [if_neg hreached, if_neg (by omega)]
        exact ⟨_, _, rfl⟩
    · obtain ⟨e', db', rest', hrun, he'⟩ :=
        alone_stream_upload_of_not (P := d.platform) (p := p) key
        [.error e] cs db (Nat.zero_le limit) haccept
      have hreached : limit ≤ (within max 0 chunks).flatten.length := by
        by_contra hshort
        exact haccept ⟨by rw [List.nil_append]; omega, fun _ hlong => hfull hlong⟩
      rw [if_pos (.inr hreached), hrun, he' hfull]
      exact ⟨_, _, rfl⟩
  · rw [if_neg hcut, within_eq_self (by omega), if_pos (.inl (by omega))]
    have hnot : ¬ Acceptable (some declared) limit [] ([] ++ chunks.flatten) :=
      fun haccept => Nat.not_le_of_lt hbig haccept.1
    obtain ⟨e', db', rest', hrun, he'⟩ := alone_stream_upload_of_not (P := d.platform) (p := p) key
      [] cs db (Nat.zero_le limit) hnot
    rw [hrun, he' fun _ => hhead]
    exact ⟨_, _, rfl⟩

/-- **When an oversized upload is reported as too large**: always if nothing cuts it short; and if
the route's limit does, exactly when the chunks in front of the cut reach the limit that counts. -/
theorem upload_too_large_iff (h : UploadAccepted d public_id field_key declared_type cs db field
    declared) (hbig : effective_limit d field < chunks.flatten.length)
    (hhead : (sniff (chunks.flatten.take SUGGESTED_HEAD_BYTES)).is_consistent_with declared = true)
    (e : Failure) :
    (∃ db' rest, (store d.platform).alone p
      (FormService.upload d public_id field_key filename declared_type (chunks.map .ok)) cs db =
        some (.error (.file_too_large (effective_limit d field)), db', rest)) ∧
    ((∃ db' rest, (store d.platform).alone p
      (FormService.upload d public_id field_key filename declared_type
        (limited_body d.config.upload_max_bytes e chunks)) cs db =
        some (.error (.file_too_large (effective_limit d field)), db', rest)) ↔
      chunks.flatten.length ≤ d.config.upload_max_bytes ∨
        effective_limit d field ≤ (within d.config.upload_max_bytes 0 chunks).flatten.length) := by
  rw [sniff_take] at hhead
  refine ⟨alone_upload_of_refused filename h fun key cs' db' => ?_, ?_⟩
  · have hnot : ¬ Acceptable (some declared) (effective_limit d field) [] ([] ++ chunks.flatten) :=
      fun haccept => Nat.not_le_of_lt hbig haccept.1
    obtain ⟨e', db'', rest, hrun, he'⟩ :=
      alone_stream_upload_of_not (P := d.platform) (p := p) key []
      cs' db' (Nat.zero_le _) hnot
    rw [List.append_nil] at hrun
    rw [hrun, he' fun _ => hhead]
    exact ⟨_, _, rfl⟩
  · obtain ⟨db', rest, hrun⟩ := alone_upload_of_refused (p := p) filename h
      (alone_stream_upload_limited d.config.upload_max_bytes chunks hbig hhead e)
    rw [hrun]
    constructor
    · rintro ⟨db'', rest', heq⟩
      by_contra hno
      rw [if_neg hno] at heq
      cases heq
    · intro hyes
      rw [if_pos hyes]
      exact ⟨_, _, rfl⟩

end Oversized

/-! ### An instance that takes 100 bytes -/

def Deployment.hundred : Deployment :=
  { Deployment.sample with config := { AppConfig.sample with upload_max_bytes := 100 } }

/-- The choices of an upload that gets the key `k1`. -/
def uploadChoices (n : ℕ) : Choice := if n = 2 then { text := "k1" } else {}

theorem uploadAccepted_hundred : UploadAccepted .hundred "contact" "cv" (some "text/plain")
    uploadChoices formWithFile { FieldDefinition.sample "cv" with field_type := .file }
    "text/plain" where
  storage := rfl
  target := ⟨_, rfl, rfl, by decide +kernel⟩
  allowed := rfl
  fresh := by decide

/-- A first chunk that reaches the limit gets the right answer. -/
theorem upload_too_large_hundred :
    ∃ db' rest, (store .sample).alone 0 (FormService.upload .hundred "contact" "cv" none
      (some "text/plain") (limited_body 100 .unavailable [List.replicate 100 0, [0]]))
      uploadChoices formWithFile = some (.error (.file_too_large 100), db', rest) :=
  (upload_too_large_iff uploadAccepted_hundred (by decide +kernel) (by decide +kernel)
    .unavailable).2.mpr (by decide +kernel)

/-- **Two chunks of 60 bytes**: the route's limit takes the second one away, and the answer is an
internal error. -/
theorem not_upload_too_large :
    ¬ ∀ (d : Deployment) (p : ℕ) (public_id field_key : String)
      (filename declared_type : Option String) (cs : ℕ → Choice) (db : Database)
      (field : FieldDefinition) (declared : String) (chunks : List (List ℕ)) (e : Failure),
      1 ≤ d.config.upload_max_bytes →
      UploadAccepted d public_id field_key declared_type cs db field declared →
      effective_limit d field < chunks.flatten.length →
      (sniff (chunks.flatten.take SUGGESTED_HEAD_BYTES)).is_consistent_with declared = true →
      ∃ db' rest, (store d.platform).alone p (FormService.upload d public_id field_key filename
        declared_type (limited_body d.config.upload_max_bytes e chunks)) cs db =
          some (.error (.file_too_large (effective_limit d field)), db', rest) := by
  intro hclaim
  obtain ⟨db', rest, hanswer⟩ := hclaim .hundred 0 "contact" "cv" none (some "text/plain")
    uploadChoices formWithFile _ _ [List.replicate 60 0, List.replicate 60 0] .unavailable
      (by decide)
    uploadAccepted_hundred (by decide +kernel) (by decide +kernel)
  obtain ⟨db'', rest', hrun⟩ := alone_upload_of_refused (p := 0) none uploadAccepted_hundred
    (alone_stream_upload_limited 100 [List.replicate 60 0, List.replicate 60 0]
      (by decide +kernel) (by decide +kernel) .unavailable)
  rw [if_neg (by decide +kernel)] at hrun
  cases hanswer.symm.trans hrun

end SubmitSnap
