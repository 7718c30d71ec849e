import SubmitSnap.Form.Exported

/-!
# A JSON export is complete

The export reads page after page of a table that changes under it. Its body is nevertheless one JSON
array, in order and without repetitions, of submissions that were stored, among them every one that
was there from before the export to its end. It ends, because each page takes it past rows that it
will not read again and only so many are ever there.

An element is described by what is found under its keys (`JsonElement`), not by the function that
writes it, and the elements stand for the rows one by one. So whatever is said of the rows is said
of the elements: they are in order, and the data of a submission that stays are in exactly one of
them.

## Main definitions

* `JsonExport` — what the body of an export holds.

## Main results

* `jsonExport_of_reaches` — so it is in every run.
-/

namespace SubmitSnap

open Interleave

/-- The body that has arrived is an array whose elements stand for `rows`, which are in order, were
all stored, and include every submission that has been there from `s₀` to `s`, with its data,
once. -/
structure JsonExport (P : Platform) (form_id : Uuid) (s₀ s : State) (stream : ExportStream)
    (rows : List SubmissionRecord) : Prop where
  array : ∃ elements, sent stream.body = (Value.array elements).to_json P ∧
    List.Forall₂ (JsonElement P) rows elements
  increasing : rows.Pairwise fun row row' => row.place < row'.place
  stored : ∀ row ∈ rows, row.form_id = form_id ∧
    ∃ e ∈ s.since s₀, row ∈ e.before.submissions.rows
  complete : ∀ row ∈ s₀.db.submissions.rows, row.form_id = form_id → StaysStored row.id s₀ s →
    (rows.filter (·.id = row.id)).map (·.data) = [row.data]

section Sound

variable {d : Deployment} {G : Regime} {w₀ w : World} {p : ℕ} {form_id : Uuid} {rounds : ℕ}
  {columns : List String} {seen : List SubmissionRecord} {row : SubmissionRecord}
  {stream : ExportStream}

/-- A submission that has been there all along has been there whenever `p` looked. -/
theorem stays_of_staysStored (h : Reaches d G w₀ w) (hfresh : ∀ e ∈ w₀.shared.log, e.pid ≠ p)
    (hrow : row ∈ w₀.shared.db.submissions.rows)
    (hstays : StaysStored row.id w₀.shared w.shared) : Stays p row w.shared.log := by
  intro e he hp
  have hsince := mem_since_of_pid h hfresh he hp
  obtain ⟨row', hrow', hid⟩ := hstays e hsince
  exact ⟨row', hrow', same_of_stays h hrow hstays e hsince row' hrow' hid⟩

/-- **Once and only once.** -/
theorem Walk.filter_id (hwalk : Walk p form_id columns seen w.shared.log) (h : Reaches d G w₀ w)
    (hfresh : ∀ e ∈ w₀.shared.log, e.pid ≠ p) (hrow : row ∈ w₀.shared.db.submissions.rows)
    (hstays : StaysStored row.id w₀.shared w.shared) (hread : ∃ row' ∈ seen, row'.Same row) :
    (seen.filter (·.id = row.id)).map (·.data) = [row.data] := by
  obtain ⟨row', hrow', hsame'⟩ := hread
  have hone : ∀ row'' ∈ seen, decide (row''.id = row.id) = true → row''.place = row'.place := by
    intro row'' hrow'' hid
    obtain ⟨e, he, hmem⟩ := hwalk.row_at h hfresh hrow''
    have hsame := same_of_stays h hrow hstays e he row'' (mem_submissionsOf.mp hmem).1
      (of_decide_eq_true hid)
    exact hsame.place.trans hsame'.place.symm
  rw [hwalk.increasing.filter_eq hrow' (decide_eq_true hsame'.id) hone, List.map_cons, hsame'.data]
  rfl

theorem Exported.jsonExport
    (hexported : Exported d.platform p form_id .json rounds columns seen stream w.shared.log)
    (h : Reaches d G w₀ w) (hfresh : ∀ e ∈ w₀.shared.log, e.pid ≠ p) (hended : stream.ended = true)
    (hclean : Clean stream.body) :
    JsonExport d.platform form_id w₀.shared w.shared stream seen where
  array := ⟨seen.map (json_object d.platform),
    (hexported.json rfl hended hclean).trans batch_text_json,
    List.forall₂_map_right_iff.mpr (List.forall₂_same.mpr fun row _ => jsonElement_object _ row)⟩
  increasing := hexported.walk.increasing
  stored row hrow := by
    obtain ⟨e, he, hmem⟩ := hexported.walk.row_at h hfresh hrow
    obtain ⟨hmem, hform⟩ := mem_submissionsOf.mp hmem
    exact ⟨hform, e, he, hmem⟩
  complete row hrow hform hstays := by
    refine hexported.walk.filter_id h hfresh hrow hstays ?_
    exact hexported.complete hended hclean row hform (stays_of_staysStored h hfresh hrow hstays)

end Sound

/-! ### Every run -/

/-- **A JSON export is complete.** Whatever happens from a point of a run on, an export that arrives
afterwards never waits and executes no more statements than there are submissions to read, and four;
when it has been followed for more rounds than that it has ended, and unless a read has failed its
body is an array as described. -/
theorem jsonExport_of_reaches (d : Deployment) {db : Database} {w₀ w : World}
    {p : ℕ} {organization_id form_id actor_id : Uuid} {rounds : ℕ}
    (h₀ : Reaches d anything (World.start db) w₀) (hnew : w₀.procs p = none)
    (h : Reaches d anything w₀ w) :
    (∀ code, w.procs p =
        some ⟨.export_submissions organization_id form_id actor_id .json rounds, some code⟩ →
      taken p (w.shared.since w₀.shared) ≤ (storedRows form_id w₀.shared w.shared).length + 4 ∧
        ∀ r q, w.next p = some (r, q) → q.NeverWaits d.platform) ∧
      ∀ stream, w.Returned p
          (.export_submissions organization_id form_id actor_id .json rounds) stream →
        (storedRows form_id w₀.shared w.shared).length < rounds →
          stream.ended = true ∧ (Clean stream.body →
            ∃ rows, JsonExport d.platform form_id w₀.shared w.shared stream rows) := by
  have hfresh := (export_safe h₀).fresh p hnew
  refine ⟨fun code hp => ?_, fun stream hreturned hrounds => ?_⟩
  · obtain ⟨⟨columns, seen, hwalk, hsteps⟩, hwaits⟩ := of_export_in_flight (h₀.trans h) hp
    refine ⟨?_, hwaits⟩
    have hsince : taken p (w.shared.since w₀.shared) ≤ taken p w.shared.log := by
      rw [h.log_eq]
      exact (List.sublist_append_left _ _).countP_le
    exact hsince.trans (hsteps.trans (Nat.add_le_add_right (hwalk.length_le h hfresh) 4))
  · obtain ⟨columns, seen, hexported⟩ := exported_of_returned (h₀.trans h) hreturned
    have hended : stream.ended = true := by
      cases hended : stream.ended with
      | true => rfl
      | false =>
        have hmany := (hexported.unended hended).trans (hexported.walk.length_le h hfresh)
        exact absurd hmany (Nat.not_le_of_lt hrounds)
    exact ⟨hended, fun hclean => ⟨seen, hexported.jsonExport h hfresh hended hclean⟩⟩

/-! ### A deletion between two pages -/

/-- Form 2 with a submission of Ada's and one of Ben's. -/
def answered : Database :=
  { Database.sample with
    submissions := ["Ada", "Ben"].zipIdx.foldl (fun submissions (name, n) =>
      submissions.insertNew ((FormService.new_submission .sample [] [("name", .string name)]
        ⟨none, none⟩ none).row (n + 3) 0)) .empty }

/-- After the first page of an export an owner deletes Ada's submission. -/
def exportsJson : List Step :=
  [.spawn 0 (.export_submissions 1 2 8 .json 9), .step 0 {}, .step 0 {}, .step 0 {}, .step 0 {},
    .spawn 1 (.delete_submission 1 3 9), .step 1 {}, .step 1 {}, .step 0 {}]

/-- The export comes to its end, and Ben's answer is in it. -/
theorem jsonExport_exportsJson :
    let w := Deployment.sample.play anything exportsJson answered
    ∃ stream rows, w.Returned 0 (.export_submissions 1 2 8 .json 9) stream ∧
      stream.ended = true ∧ JsonExport .sample 2 (World.start answered).shared w.shared
      stream rows ∧
      (rows.filter (·.id = 4)).map (·.data) = [[("name", .string "Ben")]] := by
  intro w
  have hreturned : ∃ stream, w.Returned 0 (.export_submissions 1 2 8 .json 9) stream ∧
      Clean stream.body := ⟨_, rfl, by intro e; simp [closing]⟩
  obtain ⟨stream, hreturned, hclean⟩ := hreturned
  have hreach : Reaches .sample anything (World.start answered) w :=
    Deployment.sample.reaches_play _ exportsJson _
  have hfew : (storedRows 2 (World.start answered).shared w.shared).length < 9 := by decide +kernel
  obtain ⟨hended, hrows⟩ := (jsonExport_of_reaches .sample .refl rfl hreach).2 stream hreturned hfew
  obtain ⟨rows, hexport⟩ := hrows hclean
  refine ⟨stream, rows, hreturned, hended, hexport, ?_⟩
  have hstays : ∀ e ∈ w.shared.since (World.start answered).shared,
      ∃ row ∈ e.before.submissions.rows, row.id = 4 := by decide +kernel
  exact hexport.complete _ (List.mem_cons_of_mem _ List.mem_cons_self) rfl hstays

end SubmitSnap
