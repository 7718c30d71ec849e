import SubmitSnap.Form.Exported

/-!
# The columns of a CSV export

The columns are made up before the first row is read: the fields of the form, and every key that is
stored for it at that time. A submission that is stored later, while the export is reading, may
answer a field that has been added meanwhile. It gets a row, and the answer has no column.

## The argument

Take a row that the export has read and a key of its data. The row was stored when the keys were
read, or it was stored since. In the first case the key was among them, because the query that
reads the keys sees all submissions of the form. In the second case it was stored while the export
was reading; and since pages come in ascending order, a row that is still read must have been
placed behind everything read so far. Such a row with a key that has no column is what `Late`
describes, and the regime has none. The condition is about the commit that stores the submission
and is decided there, from what the export has read by then.

## Main definitions

* `CsvExport` — the file has a column for every answer of every row.
* `storesLate` — a submission is stored that an export has no column for and will come to.

## Main results

* `csvExport_of_reaches` — no answer is lost, in every run in which no such submission is stored.
* `not_csvExport` — one is, when the definition changes during the export.
-/

namespace SubmitSnap

open Interleave

/-- What has arrived is the header of `columns` and one row for each submission that `p` has read;
these were stored, and every one of their answers has a column. -/
structure CsvExport (P : Platform) (p : ℕ) (form_id : Uuid) (s : State) (stream : ExportStream)
    (columns : List String) : Prop where
  columns_read : columnsRead p s.log = some columns
  text : sent stream.body =
    csv_header columns ++ String.join ((rowsRead p s.log).map (csv_row P columns))
  stored : ∀ row ∈ rowsRead p s.log, ∃ e ∈ s.log, row ∈ e.before.submissionsOf form_id
  kept : ∀ row ∈ rowsRead p s.log, ∀ key ∈ row.data.keys, key ∈ columns

/-- The submission comes after everything that `p` has read, and has an answer for which `p`, which
is reading the rows of the form, has no column. -/
def Late (p : ℕ) (form_id : Uuid) (log : List Event) (row : SubmissionRecord) : Prop :=
  row.form_id = form_id ∧ Reading p form_id log ∧
    (∀ row' ∈ rowsRead p log, row'.place < row.place) ∧
    ∃ columns ∈ columnsRead p log, ∃ key ∈ row.data.keys, key ∉ columns

/-- A commit stores such a submission. -/
def storesLate (p : ℕ) (form_id : Uuid) (log : List Event) : Stmt → Prop
  | .commit writes => ∃ row ∈ writes.filterMap Write.stored, Late p form_id log row
  | _ => False

/-- The runs in which the columns that `p` has made up are enough; any request may arrive,
statements may fail and processes may stop. -/
abbrev columnsSuffice (p : ℕ) (form_id : Uuid) : Regime :=
  anything.avoiding fun _ _ q s => storesLate p form_id s.log q

section Sound

variable {d : Deployment} {P : Platform} {G : Regime} {db : Database} {w : World} {p : ℕ}
  {form_id : Uuid} {form : FormRecord} {keys columns : List String} {key : String}
  {row : SubmissionRecord} {e : Event} {log : List Event}

theorem mem_export_columns :
    key ∈ export_columns form keys ↔ key ∈ form.schema.fields.map (·.key) ∨ key ∈ keys := by
  unfold export_columns
  generalize form.schema.fields.map (·.key) = columns
  induction keys generalizing columns with
  | nil => simp
  | cons first keys ih =>
    rw [List.foldl_cons, ih, List.mem_cons]
    split
    · next hmem =>
      refine or_congr_right' fun hnew => (or_iff_right fun heq => hnew ?_).symm
      exact heq ▸ hmem
    · rw [List.mem_append, List.mem_singleton, or_assoc]

/-- What is answered about the stored keys covers every stored submission. -/
theorem keys_of_reaches (h : Reaches d G (World.start db) w) (he : e ∈ w.shared.log)
    (hreads : readsKeys p form_id e) (hrow : row ∈ e.before.submissionsOf form_id) :
    ∃ keys, keysFound e = some keys ∧ ∀ key ∈ row.data.keys, key ∈ keys := by
  refine Regime.inv_of_reaches (I := fun s => ∀ e ∈ s.log, readsKeys p form_id e →
    ∀ row ∈ e.before.submissionsOf form_id, ∃ keys, keysFound e = some keys ∧
      ∀ key ∈ row.data.keys, key ∈ keys) (fun hs hx e he => ?_) (fun _ hs => hs) (fun hs => hs)
    (fun _ he => absurd he List.not_mem_nil) h e he hreads row hrow
  rw [hx.log_eq] at he
  rcases List.mem_cons.mp he with rfl | he
  · intro hreads row hrow
    unfold readsKeys at hreads
    split at hreads
    · next heq =>
      cases heq
      obtain ⟨-, rfl⟩ := hreads
      obtain ⟨-, c, db, hrun, -⟩ := hx.of_ok
      cases hrun
      exact ⟨_, rfl, fun key hkey => List.mem_dedup.mpr (List.mem_flatMap.mpr ⟨row, hrow, hkey⟩)⟩
    · exact hreads.elim
  · exact hs e he

/-- What reads rows reads nothing else. -/
theorem found_of_rowsFound (h : rowsFound e ≠ []) : formFound e = none ∧ keysFound e = none := by
  unfold rowsFound at h
  split at h
  · exact ⟨rfl, rfl⟩
  · exact absurd rfl h

/-- The columns stay the same as long as `p` is reading. -/
theorem columnsRead_of_reading {new : List Event} (h : ∀ e ∈ new, ¬ endsReading p e) :
    columnsRead p (new ++ log) = columnsRead p log :=
  columnsRead_append fun e he hp => found_of_rowsFound fun hnone => h e he ⟨hp, hnone⟩

theorem mem_rowsRead_append (h : row ∈ rowsRead p log) (new : List Event) :
    row ∈ rowsRead p (new ++ log) := by
  induction new with
  | nil => exact h
  | cons e new ih => exact List.mem_append_left _ ih

theorem of_mem_stores (h : row ∈ stores form_id e) : row.form_id = form_id ∧
    ∃ writes, e.stmt = .commit writes ∧ row ∈ writes.filterMap Write.stored ∧
    ∃ a, e.reply = .ok a := by
  unfold stores at h
  split at h
  · obtain ⟨hwrite, hform⟩ := List.mem_filter.mp h
    exact ⟨of_decide_eq_true hform, _, rfl, hwrite, _, rfl⟩
  · cases h

/-- Reading the keys stores nothing. -/
theorem not_stores_of_readsKeys (h : readsKeys p form_id e) : row ∉ stores form_id e := by
  unfold readsKeys at h
  split at h
  · exact List.not_mem_nil
  · exact h.elim

/-- The keys read last are columns. -/
theorem mem_columns_of_keys {k : Event} (hp : k.pid = p) (hkeys : keysFound k = some keys)
    (hkey : key ∈ keys) (hcolumns : columnsRead p (k :: log) = some columns) : key ∈ columns := by
  have hlast : lastAnswer p keysFound (k :: log) = some keys := by
    rw [lastAnswer, if_pos hp, hkeys, Option.some_or]
  simp only [columnsRead, hlast, Option.bind_eq_bind, Option.bind_some, Option.bind_eq_some_iff,
    Option.pure_def, Option.some.injEq] at hcolumns
  obtain ⟨form, -, rfl⟩ := hcolumns
  exact mem_export_columns.mpr (.inr hkey)

/-- What is stored while `p` is reading, and read without a column for its answers, is late. -/
theorem late_of_read {after between old : List Event} {c k : Event}
    (hmid : ∀ e ∈ after ++ c :: between, ¬ endsReading p e) (hreads : readsKeys p form_id k)
    (hcolumns : columnsRead p (after ++ c :: (between ++ k :: old)) = some columns)
    (hbefore : ∀ row' ∈ rowsRead p (after ++ c :: (between ++ k :: old)), row'.place < row.place)
    (hform : row.form_id = form_id) (hkey : key ∈ row.data.keys) (hnot : key ∉ columns) :
    Late p form_id (between ++ k :: old) row := by
  refine ⟨hform, ?_, fun row' hrow' => ?_, columns, ?_, key, hkey, hnot⟩
  · refine since_iff.mpr ⟨between, k, old, rfl, hreads, fun e he => hmid e ?_⟩
    exact List.mem_append_right _ (List.mem_cons_of_mem _ he)
  · exact hbefore row' (mem_rowsRead_append (List.mem_append_left _ hrow') after)
  · rw [← List.singleton_append, ← List.append_assoc, columnsRead_of_reading] at hcolumns
    · exact hcolumns
    · intro e he
      refine hmid e ((List.mem_append.mp he).elim (List.mem_append_left _) fun he => ?_)
      exact List.mem_append_right _ (List.mem_singleton.mp he ▸ List.mem_cons_self)

/-- **Every answer of a row that is read has a column**: it was stored when the keys were read, or
since, and then it was not late. -/
theorem mem_columns_of_read (h : Reaches d (columnsSuffice p form_id) (World.start db) w)
    (hread : Once (ReadAt p form_id columns row) w.shared.log) (hkey : key ∈ row.data.keys) :
    key ∈ columns := by
  obtain ⟨later, e, earlier, hlog, -, hrow, hreading, hcolumns, hbefore⟩ := once_iff.mp hread
  obtain ⟨mid, k, old, rfl, hreads, hmid⟩ := since_iff.mp hreading
  have hlog_keys : w.shared.log =
      (later ++ e :: mid) ++ k :: (old ++ (World.start db).shared.log) := by
    rw [hlog, List.append_assoc, List.cons_append]
    exact congrArg _ (congrArg _ (congrArg _ (congrArg _ (List.append_nil old).symm)))
  obtain ⟨w₁, hto, hshared₁, hfrom⟩ := h.visits hlog_keys
  have hlog_page : w.shared.log = later ++ e :: ((mid ++ [k]) ++ w₁.shared.log) := by
    rw [hlog, hshared₁, List.append_assoc, List.singleton_append]
    exact congrArg _ (congrArg _ (congrArg _ (congrArg _ (List.append_nil old).symm)))
  obtain ⟨w₂, hto₂, hshared₂, -⟩ := hfrom.visits hlog_page
  have hrow₂ : row ∈ w₂.shared.db.submissionsOf form_id := by rwa [hshared₂]
  obtain ⟨row₀, hrow₀, hsame⟩ := origin_of_reaches hto₂ hrow₂
  rw [← hsame.data] at hkey
  rcases mem_storedRows.mp hrow₀ with hthere | ⟨c, hc, hstores⟩
  · rw [hshared₁] at hthere
    obtain ⟨keys, hfound, hkeys⟩ := keys_of_reaches h (by simp [hlog]) hreads hthere
    rw [columnsRead_of_reading hmid] at hcolumns
    exact mem_columns_of_keys (pid_of_readsKeys hreads) hfound (hkeys key hkey) hcolumns
  · obtain ⟨hform, writes, hstmt, hwrite, a, hok⟩ := of_mem_stores hstores
    rw [Shared.since_eq (congrArg Shared.log hshared₂)] at hc
    have hc : c ∈ mid := (List.mem_append.mp hc).resolve_right fun heq =>
      not_stores_of_readsKeys hreads (List.mem_singleton.mp heq ▸ hstores)
    obtain ⟨after, between, rfl⟩ := List.append_of_mem hc
    rw [List.append_assoc, List.cons_append] at hcolumns hbefore hlog
    by_contra hnot
    have hadmitted := throughout_iff.mp h.admitted (later ++ e :: after) c (between ++ k :: old)
      (by rw [hlog, List.append_assoc, List.cons_append]) a hok
    rw [hstmt] at hadmitted
    rw [← hsame.place] at hbefore
    exact hadmitted.2 ⟨row₀, hwrite, late_of_read hmid hreads hcolumns hbefore hform hkey hnot⟩

end Sound

/-! ### Every run -/

/-- **No answer is lost**, in every run in which no submission is stored that the export has no
column for and will come to. -/
theorem csvExport_of_reaches (d : Deployment) {db : Database} {w : World} {p : ℕ}
    {organization_id form_id actor_id : Uuid} {rounds : ℕ} {stream : ExportStream}
    (h : Reaches d (columnsSuffice p form_id) (World.start db) w) (hreturned : w.Returned p
      (.export_submissions organization_id form_id actor_id .csv rounds) stream) :
    ∃ columns, CsvExport d.platform p form_id w.shared stream columns := by
  obtain ⟨columns, seen, hexported⟩ := exported_of_returned h hreturned
  have hrows := hexported.walk.rows
  refine ⟨columns, hexported.columns_read, ?_, fun row hrow => ?_, fun row hrow key hkey => ?_⟩
  · rw [hexported.csv rfl, batch_text_csv, hrows]
  · obtain ⟨e, he, earlier, -, hmem, -⟩ := (hexported.walk.read row (hrows ▸ hrow)).exists_mem
    exact ⟨e, he, hmem⟩
  · exact mem_columns_of_read h (hexported.walk.read row (hrows ▸ hrow)) hkey

/-! ### A field that is added during an export -/

/-- The form is to ask for an email too. -/
def asksEmail : UpdateFormRequest where
  name := none
  schema := some (.sample ["name", "email"])
  notify_emails := none
  success_message := none
  redirect_url := none
  honeypot_enabled := none

/-- Once the columns of an export are made up, an owner adds a field to the form and somebody
answers it; then the export reads its rows. -/
def fieldAdded : List Step :=
  [.spawn 0 (.export_submissions 1 2 8 .csv 9), .step 0 {}, .step 0 {}, .step 0 {},
    .spawn 1 (.update_form 1 2 asksEmail 8), .step 1 {}, .step 1 {}, .step 1 {},
    .spawn 2 (.submit "contact" [("name", .string "Ben"), ("email", .string "ben@example.org")]
      ⟨none, none⟩ none), .step 2 {}, .step 2 {}, .step 2 {}, .step 2 { id := 3 }, .step 2 {},
    .step 0 {}, .step 0 {}]

/-- **The columns are made up too early.** A submission has a row in the file, and one of its
answers has no column. -/
theorem not_csvExport : ¬ ∀ w p stream, Reaches .sample anything (World.start .sample) w →
    w.Returned p (.export_submissions 1 2 8 .csv 9) stream →
    ∃ columns, CsvExport .sample p 2 w.shared stream columns := by
  intro hall
  let w := Deployment.sample.play anything fieldAdded .sample
  have hreturned : ∃ stream, w.Returned 0 (.export_submissions 1 2 8 .csv 9) stream := ⟨_, rfl⟩
  obtain ⟨stream, hreturned⟩ := hreturned
  obtain ⟨columns, hexport⟩ :=
    hall w 0 stream (Deployment.sample.reaches_play _ fieldAdded _) hreturned
  have hcolumns : columnsRead 0 w.shared.log = some ["name"] := by decide +kernel
  have hlost : ∃ row ∈ rowsRead 0 w.shared.log, "email" ∈ row.data.keys := by decide +kernel
  obtain ⟨row, hrow, hkey⟩ := hlost
  have hmem := hexport.kept row hrow "email" hkey
  obtain rfl := Option.some.inj (hexport.columns_read.symm.trans hcolumns)
  revert hmem
  decide

/-- The same, when the answer has come before the columns are made up. -/
def fieldAddedBefore : List Step :=
  [.spawn 1 (.update_form 1 2 asksEmail 8), .step 1 {}, .step 1 {}, .step 1 {},
    .spawn 2 (.submit "contact" [("name", .string "Ben"), ("email", .string "ben@example.org")]
      ⟨none, none⟩ none), .step 2 {}, .step 2 {}, .step 2 {}, .step 2 { id := 3 }, .step 2 {},
    .spawn 0 (.export_submissions 1 2 8 .csv 9), .step 0 {}, .step 0 {}, .step 0 {}, .step 0 {},
    .step 0 {}]

instance (p : ℕ) (form_id : Uuid) : DecidablePred (readsKeys p form_id) := fun e => by
  delta readsKeys
  split <;> infer_instance

instance (p : ℕ) : DecidablePred (endsReading p) := fun e =>
  decidable_of_iff (e.pid = p ∧ (rowsFound e).isEmpty = true) (by rw [List.isEmpty_iff]; rfl)

instance (p : ℕ) (form_id : Uuid) (log : List Event) : DecidablePred (Late p form_id log) :=
  fun row => inferInstanceAs (Decidable (row.form_id = form_id ∧ Reading p form_id log ∧
    (∀ row' ∈ rowsRead p log, row'.place < row.place) ∧
    ∃ columns ∈ columnsRead p log, ∃ key ∈ row.data.keys, key ∉ columns))

instance (p : ℕ) (form_id : Uuid) (log : List Event) : DecidablePred (storesLate p form_id log) :=
  fun q => by
    induction q using Stmt.casesOn <;> (delta storesLate; infer_instance)

/-- The email has a column. -/
theorem csvExport_fieldAddedBefore :
    let w := Deployment.sample.play (columnsSuffice 0 2) fieldAddedBefore .sample
    ∃ stream columns, w.Returned 0 (.export_submissions 1 2 8 .csv 9) stream ∧
      CsvExport .sample 0 2 w.shared stream columns ∧ "email" ∈ columns := by
  intro w
  have hreturned : ∃ stream, w.Returned 0 (.export_submissions 1 2 8 .csv 9) stream := ⟨_, rfl⟩
  obtain ⟨stream, hreturned⟩ := hreturned
  obtain ⟨columns, hexport⟩ := csvExport_of_reaches .sample
    (Deployment.sample.reaches_play (columnsSuffice 0 2) fieldAddedBefore _) hreturned
  have hanswered : ∃ row ∈ rowsRead 0 w.shared.log, "email" ∈ row.data.keys := by decide +kernel
  obtain ⟨row, hrow, hkey⟩ := hanswered
  exact ⟨stream, columns, hreturned, hexport, hexport.kept row hrow "email" hkey⟩

end SubmitSnap
