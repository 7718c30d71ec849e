import SubmitSnap.Form.Sound

/-!
# What an export reads

An export reads the form, the keys that have been stored for it, and then page after page, while
others store, mark and delete submissions. What it knows at the end is a fact about its own reads:
the rows are in order, each of them was in the table when its page was read, and a row that was in
the table at every one of the reads is among them.

## The argument

An export is no snapshot. Its pages are separate statements, each of which sees the table of its
own time, so what it knows can only be said in terms of its reads, and `Walk` says it with the
log. The order of the rows and their number come from `Keyset`. That a row which stays is not
missed is the last clause: whatever has been passed in the order and was there at every read has
been read.

A row can change between two pages, in its status only, so the rows that are read are compared up
to that (`SubmissionRecord.Same`). And the text goes out batch by batch, which is why `Sends`
describes a part of the file after the rows that have been sent already: the induction is on the
rounds, and the rows that are still to come get longer as it goes on.

How many steps an export takes is counted along with it. It gives a bound for exports that are
still in flight, about which there is nothing else to say.

## Main definitions

* `Walk` — what is known of the rows read so far.
* `Exported` — what is known of an export that has been answered.

## Main results

* `Walk.page` — one page keeps a walk.
* `exported_of_returned` — every answered export is one.
* `of_export_in_flight` — and any other has taken no more steps than it has rows to show for.
-/

namespace SubmitSnap

open Interleave
open Interleave.Script

/-! ### The reads of an export

An export leaves no trace in the database; all it does is read, and its reads are in the log with
their answers. Everything below is a function of the log, for one process: which columns follow
from what it has read, and which rows it has read, in order. -/

/-- The form that an event has read. -/
def formFound : Event → Option FormRecord
  | ⟨_, _, _, .forms (.find _ _), .ok found⟩ => found
  | _ => none

/-- The keys that an event has read. -/
def keysFound : Event → Option (List String)
  | ⟨_, _, _, .submissions (.distinct_answer_keys _), .ok keys⟩ => some keys
  | _ => none

/-- The rows of the page that an event has read. -/
def rowsFound : Event → List SubmissionRecord
  | ⟨_, _, _, .submissions (.page_after _ _ _), .ok rows⟩ => rows
  | _ => []

/-- The rows that `p` has read, in the order of reading. -/
def rowsRead (p : ℕ) : List Event → List SubmissionRecord
  | [] => []
  | e :: log => rowsRead p log ++ if e.pid = p then rowsFound e else []

/-- What `p` has last been answered. -/
def lastAnswer {α : Type} (p : ℕ) (found : Event → Option α) : List Event → Option α
  | [] => none
  | e :: log => (if e.pid = p then found e else none).or (lastAnswer p found log)

/-- The columns that follow from what `p` has read. -/
def columnsRead (p : ℕ) (log : List Event) : Option (List String) := do
  let form ← lastAnswer p formFound log
  let keys ← lastAnswer p keysFound log
  return export_columns form keys

/-- `p` reads the keys that are stored for the form. -/
def readsKeys (p : ℕ) (form_id : Uuid) : Event → Prop
  | ⟨pid, _, _, .submissions (.distinct_answer_keys id), .ok _⟩ => pid = p ∧ id = form_id
  | _ => False

/-- `p` does anything but read a page with rows on it. -/
def endsReading (p : ℕ) (e : Event) : Prop := e.pid = p ∧ rowsFound e = []

/-- `p` has read the keys and is not through with the rows. -/
abbrev Reading (p : ℕ) (form_id : Uuid) : List Event → Prop :=
  Since (readsKeys p form_id) (endsReading p)

/-- `p`, which has made up its columns and read earlier rows only, reads a page of a table with this
row. -/
def ReadAt (p : ℕ) (form_id : Uuid) (columns : List String) (row : SubmissionRecord) (e : Event)
    (earlier : List Event) : Prop :=
  e.pid = p ∧ row ∈ e.before.submissionsOf form_id ∧ Reading p form_id earlier ∧
    columnsRead p earlier = some columns ∧ ∀ row' ∈ rowsRead p earlier, row'.place < row.place

/-- The submission was there whenever `p` looked. -/
def Stays (p : ℕ) (row : SubmissionRecord) (log : List Event) : Prop :=
  Own p (fun e => ∃ row' ∈ e.before.submissions.rows, row'.Same row) log

/-- What is known when `p` has read the rows `seen`. They are in strictly increasing order, so no
row is read twice; each was in the table when its page was read, for columns that were made up
before; and nothing that stayed in the table has been passed over. The last clause is about rows
*up to* the position of the walk, which makes it inductive: it says nothing of what is still to
come. -/
structure Walk (p : ℕ) (form_id : Uuid) (columns : List String) (seen : List SubmissionRecord)
    (log : List Event) : Prop where
  increasing : Keyset.Increasing SubmissionRecord.place seen
  rows : rowsRead p log = seen
  read : ∀ row ∈ seen, Once (ReadAt p form_id columns row) log
  covered : ∀ row, row.form_id = form_id → Stays p row log →
    Keyset.Passed SubmissionRecord.place seen row.place → ∃ row' ∈ seen, row'.Same row

section Walk

variable {P : Platform} {G : Regime} {p : ℕ} {r : Request} {q : Stmt} {s s' : State}
  {x : Except Failure q.Reply} {db : Database} {form_id : Uuid} {columns : List String}
  {seen batch : List SubmissionRecord} {row : SubmissionRecord} {log : List Event}

theorem mem_submissionsOf :
    row ∈ db.submissionsOf form_id ↔ row ∈ db.submissions.rows ∧ row.form_id = form_id := by
  rw [Database.submissionsOf, List.mem_filter, beq_iff_eq]

/-- Two submissions differ in their places. -/
theorem nodup_places (db : Database) (form_id : Uuid) :
    ((db.submissionsOf form_id).map SubmissionRecord.place).Nodup := by
  have hids : ((db.submissionsOf form_id).map SubmissionRecord.id).Nodup :=
    (List.filter_sublist.map _).nodup db.submissions.nodup
  refine List.Nodup.of_map (fun place => (ofLex place).2) ?_
  rw [List.map_map]
  exact hids

theorem pid_of_readsKeys {e : Event} (h : readsKeys p form_id e) : e.pid = p := by
  unfold readsKeys at h
  split at h
  · exact h.1
  · exact h.elim

theorem Reading.of_others (h : Reading p form_id s.log) (ho : Others p s s') :
    Reading p form_id s'.log :=
  (ho.since_iff (fun _ => pid_of_readsKeys) fun _ => And.left).mpr h

/-- Reading goes on after a page that was not empty. -/
theorem Reading.page {after : Option (Timestamp ×ₗ Uuid)} {limit : ℕ} {id : Uuid}
    (h : Reading p form_id s.log)
    (hx : G.Effect (store P) p r (.submissions (.page_after id after limit)) s (.ok batch) s')
    (hne : batch ≠ []) : Reading p form_id s'.log := by
  rw [hx.log_eq]
  exact .inr ⟨fun hends => hne hends.2, h⟩

theorem rowsRead_append {new : List Event} (h : ∀ e ∈ new, e.pid = p → rowsFound e = []) :
    rowsRead p (new ++ log) = rowsRead p log := by
  induction new with
  | nil => rfl
  | cons e new ih =>
    obtain ⟨he, hnew⟩ := List.forall_mem_cons.mp h
    rw [List.cons_append, rowsRead, ih hnew]
    split
    · next hp => rw [he hp, List.append_nil]
    · exact List.append_nil _

theorem lastAnswer_cons {α : Type} {found : Event → Option α} {e : Event}
    (h : e.pid = p → found e = none) : lastAnswer p found (e :: log) = lastAnswer p found log := by
  rw [lastAnswer]
  split
  · next hp => rw [h hp, Option.none_or]
  · exact Option.none_or

theorem lastAnswer_append {α : Type} {found : Event → Option α} {new : List Event}
    (h : ∀ e ∈ new, e.pid = p → found e = none) :
    lastAnswer p found (new ++ log) = lastAnswer p found log := by
  induction new with
  | nil => rfl
  | cons e new ih =>
    obtain ⟨he, hnew⟩ := List.forall_mem_cons.mp h
    rw [List.cons_append, lastAnswer_cons he, ih hnew]

theorem columnsRead_cons {e : Event} (h : e.pid = p → formFound e = none ∧ keysFound e = none) :
    columnsRead p (e :: log) = columnsRead p log := by
  unfold columnsRead
  rw [lastAnswer_cons fun hp => (h hp).1, lastAnswer_cons fun hp => (h hp).2]

/-- Columns are made up of two reads. -/
theorem columnsRead_append {new : List Event}
    (h : ∀ e ∈ new, e.pid = p → formFound e = none ∧ keysFound e = none) :
    columnsRead p (new ++ log) = columnsRead p log := by
  unfold columnsRead
  rw [lastAnswer_append fun e he hp => (h e he hp).1,
    lastAnswer_append fun e he hp => (h e he hp).2]

theorem rowsRead_of_others (ho : Others p s s') : rowsRead p s'.log = rowsRead p s.log := by
  obtain ⟨new, hnew, hne⟩ := ho
  rw [hnew]
  exact rowsRead_append fun e he hp => absurd hp (hne e he)

theorem lastAnswer_of_others {α : Type} {found : Event → Option α} (ho : Others p s s') :
    lastAnswer p found s'.log = lastAnswer p found s.log := by
  obtain ⟨new, hnew, hne⟩ := ho
  rw [hnew]
  exact lastAnswer_append fun e he hp => absurd hp (hne e he)

theorem columnsRead_of_others (ho : Others p s s') :
    columnsRead p s'.log = columnsRead p s.log := by
  obtain ⟨new, hnew, hne⟩ := ho
  rw [hnew]
  exact columnsRead_append fun e he hp => absurd hp (hne e he)

/-- Nothing has been read. -/
theorem Walk.nil (h : rowsRead p log = []) : Walk p form_id columns [] log where
  increasing := .nil
  rows := h
  read _ hrow := absurd hrow List.not_mem_nil
  covered _ _ _ hpassed := by
    obtain ⟨_, hc, -⟩ := hpassed
    cases hc

/-- What others do is no part of a walk. -/
theorem Walk.of_others (h : Walk p form_id columns seen s.log) (ho : Others p s s') :
    Walk p form_id columns seen s'.log where
  increasing := h.increasing
  rows := (rowsRead_of_others ho).trans h.rows
  read row hrow := by
    obtain ⟨new, hnew, -⟩ := ho
    rw [hnew]
    exact (h.read row hrow).append new
  covered row hform hstays :=
    h.covered row hform fun e he hp => hstays e (ho.mem he) hp

/-- Nor is a statement of its own that reads no rows. -/
theorem Walk.effect (h : Walk p form_id columns seen s.log) (hx : G.Effect (store P) p r q s x s')
    (hq : rowsFound ⟨p, r, s.db, q, x⟩ = []) : Walk p form_id columns seen s'.log where
  increasing := h.increasing
  rows := by
    rw [hx.log_eq, rowsRead, h.rows, hq, ite_self, List.append_nil]
  read row hrow := by
    rw [hx.log_eq]
    exact .inr (h.read row hrow)
  covered row hform hstays :=
    h.covered row hform fun e he hp => hstays e (hx.mem he) hp

/-- What a page read answers. -/
theorem page_of_effect {after : Option (Timestamp ×ₗ Uuid)} {limit : ℕ}
    (hx : G.Effect (store P) p r (.submissions (.page_after form_id after limit)) s
      (.ok batch) s') :
    batch = Keyset.page SubmissionRecord.place (s.db.submissionsOf form_id) after limit := by
  obtain ⟨-, c, db, hrun, -⟩ := hx.of_ok
  cases hrun
  rfl

/-- A submission that stays is in the table the page is read from. -/
theorem Stays.mem (h : Stays p row s'.log) (hform : row.form_id = form_id)
    (hx : G.Effect (store P) p r q s x s') :
    ∃ row' ∈ s.db.submissionsOf form_id, row'.Same row := by
  obtain ⟨row', hrow', hsame⟩ := h _ hx.mem_self rfl
  exact ⟨row', mem_submissionsOf.mpr ⟨hrow', hsame.form_id.trans hform⟩, hsame⟩

/-- **One page.** -/
theorem Walk.page (h : Walk p form_id columns seen s.log) (hreading : Reading p form_id s.log)
    (hcolumns : columnsRead p s.log = some columns)
    (hx : G.Effect (store P) p r (.submissions (.page_after form_id
      (Keyset.cursor SubmissionRecord.place seen) EXPORT_BATCH)) s (.ok batch) s') :
    Walk p form_id columns (seen ++ batch) s'.log where
  increasing := by
    rw [page_of_effect hx]
    exact Keyset.increasing_append (nodup_places s.db form_id) h.increasing
  rows := by
    rw [hx.log_eq, rowsRead, h.rows, if_pos rfl]
    rfl
  read row hrow := by
    rw [hx.log_eq]
    rcases List.mem_append.mp hrow with hrow | hrow
    · exact .inr (h.read row hrow)
    · rw [page_of_effect hx] at hrow
      obtain ⟨hmem, hafter⟩ := Keyset.mem_of_mem_page hrow
      refine .inl ⟨rfl, hmem, hreading, hcolumns, fun row' hrow' => ?_⟩
      obtain ⟨c, hc, hle⟩ := h.increasing.le_cursor (h.rows ▸ hrow')
      exact lt_of_le_of_lt hle (hafter c hc)
  covered row hform hstays hpassed := by
    have hseen : Keyset.Passed SubmissionRecord.place seen row.place →
        ∃ row' ∈ seen, row'.Same row :=
      h.covered row hform fun e he hp => hstays e (hx.mem he) hp
    obtain ⟨row', hrow', hsame⟩ := hstays.mem hform hx
    rw [← hsame.place] at hpassed hseen
    cases hlast : batch.getLast? with
    | none =>
      rw [List.getLast?_eq_none_iff.mp hlast, List.append_nil] at hpassed ⊢
      exact hseen hpassed
    | some last =>
      rw [page_of_effect hx] at hlast hpassed ⊢
      exact Keyset.read_append (φ := fun row' => row'.Same row) (nodup_places s.db form_id) hrow'
        hsame hseen hlast hpassed

/-- **The last page**: a submission that was there all along has been read. -/
theorem Walk.complete (h : Walk p form_id columns seen s'.log)
    (hx : G.Effect (store P) p r (.submissions (.page_after form_id
      (Keyset.cursor SubmissionRecord.place seen) EXPORT_BATCH)) s (.ok []) s')
    (hform : row.form_id = form_id) (hstays : Stays p row s'.log) :
    ∃ row' ∈ seen, row'.Same row := by
  obtain ⟨row', hrow', hsame⟩ := hstays.mem hform hx
  refine h.covered row hform hstays (hsame.place ▸ ?_)
  exact Keyset.passed_of_page_nil (by decide) hrow' (page_of_effect hx).symm

end Walk

/-! ### What arrives

The response is a stream, and may break off. A part of it is worth something even then (the header
and the rows of a CSV file that have been sent); of a JSON array only the whole is. -/

/-- The text that arrives. -/
def sent (chunks : List (Except Failure String)) : String :=
  String.join (chunks.filterMap Except.toOption)

/-- No read has failed. -/
def Clean (chunks : List (Except Failure String)) : Prop := ∀ e, Except.error e ∉ chunks

theorem sent_ok {text : String} {chunks : List (Except Failure String)} :
    sent (.ok text :: chunks) = text ++ sent chunks := by
  rw [sent, List.filterMap_cons]
  exact String.join_cons

theorem clean_ok {text : String} {chunks : List (Except Failure String)} :
    Clean (.ok text :: chunks) ↔ Clean chunks :=
  forall_congr' fun e => by simp

theorem not_clean_error {e : Failure} {chunks : List (Except Failure String)} :
    ¬ Clean (.error e :: chunks) :=
  fun h => h e List.mem_cons_self

/-- The task behind an export has read the rows `more` after the rows `seen`, in `rounds` rounds at
most; `out` is what it has sent, and whether that was all. -/
structure Sends (P : Platform) (p : ℕ) (form_id : Uuid) (format : ExportFormat)
    (columns : List String) (rounds : ℕ) (first_row : Bool) (seen more : List SubmissionRecord)
    (out : List (Except Failure String) × Bool) (log : List Event) : Prop where
  columns_read : columnsRead p log = some columns
  walk : Walk p form_id columns (seen ++ more) log
  steps : taken p log ≤ (seen ++ more).length + 4
  csv : format = .csv → sent out.1 = (batch_text P format columns more first_row).1
  all : out.2 = true → Clean out.1 →
    sent out.1 = (batch_text P format columns more first_row).1 ++ sent (closing format)
  complete : out.2 = true → Clean out.1 → ∀ row, row.form_id = form_id → Stays p row log →
    ∃ row' ∈ seen ++ more, row'.Same row
  unended : out.2 = false → rounds ≤ more.length

/-- One batch, and the rest. -/
theorem Sends.extend {P : Platform} {p : ℕ} {form_id : Uuid}
    {format : ExportFormat} {columns : List String} {rounds : ℕ} {first_row : Bool}
    {seen batch more : List SubmissionRecord} {out : List (Except Failure String) × Bool}
    {s s' : State} (h : Sends P p form_id format columns rounds
      (batch_text P format columns batch first_row).2 (seen ++ batch) more out s.log)
    (hne : batch ≠ []) (ho : Others p s s') :
    Sends P p form_id format columns (rounds + 1) first_row seen (batch ++ more)
      (.ok (batch_text P format columns batch first_row).1 :: out.1, out.2) s'.log := by
  have hwalk := h.walk.of_others ho
  have htaken := (taken_of_others ho).trans_le h.steps
  have hlength : 0 < batch.length := List.length_pos_iff.mpr hne
  rw [List.append_assoc] at hwalk htaken
  refine ⟨(columnsRead_of_others ho).trans h.columns_read, hwalk, htaken, fun hcsv => ?_,
    fun hended hclean => ?_, fun hended hclean row hform hstays => ?_, fun hended => ?_⟩
  · rw [sent_ok, h.csv hcsv, batch_text_append]
  · rw [sent_ok, h.all hended (clean_ok.mp hclean), batch_text_append, String.append_assoc]
  · rw [← List.append_assoc]
    exact h.complete hended (clean_ok.mp hclean) row hform fun e he hp => hstays e (ho.mem he) hp
  · have hrounds := h.unended hended
    rw [List.length_append]
    omega

/-- What is known of an export that has been answered. -/
structure Exported (P : Platform) (p : ℕ) (form_id : Uuid) (format : ExportFormat) (rounds : ℕ)
    (columns : List String) (seen : List SubmissionRecord) (stream : ExportStream)
    (log : List Event) : Prop where
  columns_read : columnsRead p log = some columns
  walk : Walk p form_id columns seen log
  steps : taken p log ≤ seen.length + 4
  csv : format = .csv → sent stream.body =
    csv_header columns ++ (batch_text P format columns seen true).1
  json : format = .json → stream.ended = true → Clean stream.body →
    sent stream.body = "[" ++ (batch_text P format columns seen true).1 ++ "]"
  complete : stream.ended = true → Clean stream.body → ∀ row, row.form_id = form_id →
    Stays p row log → ∃ row' ∈ seen, row'.Same row
  unended : stream.ended = false → rounds ≤ seen.length

/-! ### The script

The loop is proved by induction on the rounds it is allowed. In each round a page is read; an
empty page is the end, and any other adds to the walk. -/

/-- The statement never waits. -/
def Stmt.NeverWaits (P : Platform) (q : Stmt) : Prop :=
  ∀ p c db, (q.run P p c db).isSome = true

/-- An export can always go on, and has rows to show for the steps it has taken. -/
def ExportPre (P : Platform) (p : ℕ) (q : Stmt) (s : State) : Request → Prop
  | .export_submissions _ form_id _ _ _ => q.NeverWaits P ∧
    ∃ columns seen, Walk p form_id columns seen s.log ∧ taken p s.log ≤ seen.length + 3
  | _ => True

/-- What is known of a request when it has ended. -/
def ExportPost (P : Platform) (p : ℕ) : (r : Request) → Except r.Err r.Res → State → Prop
  | .export_submissions _ form_id _ format rounds, .ok stream, s => ∃ columns seen,
    Exported P p form_id format rounds columns seen stream s.log
  | .export_submissions _ form_id _ _ _, .error _, s =>
    ∃ columns seen, Walk p form_id columns seen s.log ∧ taken p s.log ≤ seen.length + 3
  | _, _, _ => True

/-- The logic of exports, in any regime. Neither locks nor an invariant of the database take part
in it: an export reads, and what it has read is in the log. -/
def exportLogic (P : Platform) (G : Regime) : Logic G (store P) :=
  .ofPre fun p r q s => ExportPre P p q s r

section Script

variable {d : Deployment} {P : Platform} {G : Regime} {p : ℕ} {s s' : State}
  {organization_id form_id actor_id : Uuid}
  {format : ExportFormat} {rounds rounds' : ℕ} {columns : List String}
  {seen : List SubmissionRecord} {first_row : Bool}

/-- `p` has executed `n` statements at most, and has not looked at submissions. -/
structure Begun (p n : ℕ) (log : List Event) : Prop where
  rows : rowsRead p log = []
  steps : taken p log ≤ n

theorem Begun.of_fresh (h : ∀ e ∈ s.log, e.pid ≠ p) : Begun p 0 s.log where
  rows := by
    rw [← List.append_nil s.log]
    exact rowsRead_append fun e he hp => absurd hp (h e he)
  steps := (taken_eq_zero h).le

theorem Begun.of_others {n : ℕ} (h : Begun p n s.log) (ho : Others p s s') : Begun p n s'.log :=
  ⟨(rowsRead_of_others ho).trans h.rows, (taken_of_others ho).trans_le h.steps⟩

theorem Begun.effect {n : ℕ} {r : Request} {q : Stmt} {x : Except Failure q.Reply}
    (h : Begun p n s.log) (hx : G.Effect (store P) p r q s x s')
    (hq : rowsFound ⟨p, r, s.db, q, x⟩ = []) : Begun p (n + 1) s'.log where
  rows := by
    rw [hx.log_eq, rowsRead, h.rows, hq, ite_self, List.append_nil]
  steps := (taken_effect hx).trans_le (Nat.succ_le_succ h.steps)

theorem Begun.walk {n : ℕ} (h : Begun p n s.log) (hn : n ≤ 3) :
    ∃ columns seen, Walk p form_id columns seen s.log ∧ taken p s.log ≤ seen.length + 3 :=
  ⟨[], [], .nil h.rows, h.steps.trans hn⟩

/-- **The task behind an export.** -/
theorem wp_export_rows (hwalk : Walk p form_id columns seen s.log)
    (hreading : Reading p form_id s.log) (hcolumns : columnsRead p s.log = some columns)
    (htaken : taken p s.log ≤ seen.length + 3) :
    (exportLogic d.platform G).wp p
      (.export_submissions organization_id form_id actor_id format rounds')
      (FormService.export_rows d format form_id columns rounds
        (Keyset.cursor SubmissionRecord.place seen) first_row)
      (fun y s' => ∃ more out, y = .ok out ∧
        Sends d.platform p form_id format columns rounds first_row seen more out s'.log) s := by
  induction rounds generalizing seen first_row s with
  | zero =>
    refine fun s' he => ⟨[], _, rfl, ?_⟩
    refine ⟨(columnsRead_of_others he.others).trans hcolumns, ?_, ?_, fun _ => rfl, nofun, nofun,
      fun _ => le_rfl⟩
    · rw [List.append_nil]
      exact hwalk.of_others he.others
    · rw [List.append_nil, taken_of_others he.others]
      omega
  | succ rounds ih =>
    refine Logic.wp_attempt_bind fun s₁ he₁ => ?_
    have hwalk₁ := hwalk.of_others he₁.others
    have hreading₁ := hreading.of_others he₁.others
    have hcolumns₁ := (columnsRead_of_others he₁.others).trans hcolumns
    have htaken₁ := (taken_of_others he₁.others).trans_le htaken
    refine ⟨⟨fun _ _ _ => rfl, columns, seen, hwalk₁, htaken₁⟩, fun answer s₂ hx _ => ?_⟩
    have htaken₂ := taken_effect hx
    have hcolumns₂ : columnsRead p s₂.log = some columns := by
      rw [hx.log_eq, ← hcolumns₁]
      exact columnsRead_cons fun _ => ⟨rfl, rfl⟩
    cases answer with
    | error e =>
      refine fun s₃ he₃ => ⟨[], _, rfl, ?_⟩
      refine ⟨(columnsRead_of_others he₃.others).trans hcolumns₂, ?_, ?_, fun _ => rfl,
        fun _ h => (not_clean_error h).elim, fun _ h => (not_clean_error h).elim, nofun⟩
      · rw [List.append_nil]
        exact (hwalk₁.effect hx rfl).of_others he₃.others
      · rw [List.append_nil, taken_of_others he₃.others]
        omega
    | ok batch =>
      have hwalk₂ := hwalk₁.page hreading₁ hcolumns₁ hx
      dsimp only
      cases hlast : batch.getLast? with
      | none =>
        obtain rfl := List.getLast?_eq_none_iff.mp hlast
        rw [List.append_nil] at hwalk₂
        refine fun s₃ he₃ => ⟨[], _, rfl, ?_⟩
        have hwalk₃ := hwalk₂.of_others he₃.others
        rw [← List.append_nil seen] at hwalk₃
        refine ⟨(columnsRead_of_others he₃.others).trans hcolumns₂, hwalk₃, ?_, ?_, fun _ _ => rfl,
          fun _ _ row hform hstays => ?_, nofun⟩
        · rw [List.append_nil, taken_of_others he₃.others]
          omega
        · rintro rfl
          rfl
        · rw [List.append_nil]
          exact hwalk₂.complete hx hform fun e he hp => hstays e (he₃.others.mem he) hp
      | some last =>
        have hcursor : Keyset.cursor SubmissionRecord.place (seen ++ batch) = some last.place := by
          rw [page_of_effect hx] at hlast ⊢
          exact Keyset.cursor_append hlast
        have hne : batch ≠ [] := fun heq => by simp [heq] at hlast
        have hreading₂ := hreading₁.page hx hne
        have hlength : 0 < batch.length := List.length_pos_iff.mpr hne
        have hrest := @ih _ _ (batch_text d.platform format columns batch first_row).2
          hwalk₂ hreading₂ hcolumns₂ (by rw [List.length_append]; omega)
        rw [hcursor] at hrest
        refine Logic.wp_bind trivial hrest (fun out s₃ _ hout => ?_) fun _ _ _ hout => ?_
        · obtain ⟨more, out, heq, hsends⟩ := hout
          cases heq
          exact fun s₄ he₄ => ⟨batch ++ more, _, rfl, hsends.extend hne he₄.others⟩
        · obtain ⟨_, _, heq, -⟩ := hout
          cases heq

/-- Access is looked up in one statement. -/
theorem wp_access_begun (h : Begun p 0 s.log) : (exportLogic P G).wp p
    (.export_submissions organization_id form_id actor_id format rounds)
    (FormService.access organization_id actor_id) (fun _ s' => Begun p 1 s'.log) s := by
  refine Logic.wp_mapError (Logic.wp_query_bind fun s₁ he₁ => ?_)
  have h₁ := h.of_others he₁.others
  refine ⟨⟨fun _ _ _ => rfl, h₁.walk (by decide)⟩, fun found s₂ hx _ => ?_,
    fun e s₂ hx _ s₃ he₃ => ?_⟩
  · have h₂ := h₁.effect hx rfl
    cases found with
    | none => exact fun s₃ he₃ => h₂.of_others he₃.others
    | some row =>
      dsimp only
      split
      · exact fun s₃ he₃ => h₂.of_others he₃.others
      · exact fun s₃ he₃ => h₂.of_others he₃.others
  · exact (h₁.effect hx rfl).of_others he₃.others

/-- The form is read in one statement. -/
theorem wp_load_begun (h : Begun p 1 s.log) : (exportLogic P G).wp p
    (.export_submissions organization_id form_id actor_id format rounds)
    (FormService.load organization_id form_id) (fun y s' => Begun p 2 s'.log ∧
      ∀ form, y = .ok form → lastAnswer p formFound s'.log = some form) s := by
  refine Logic.wp_query_bind fun s₁ he₁ => ?_
  have h₁ := h.of_others he₁.others
  refine ⟨⟨fun _ _ _ => rfl, h₁.walk (by decide)⟩, fun found s₂ hx _ => ?_,
    fun e s₂ hx _ s₃ he₃ => ?_⟩
  · have h₂ := h₁.effect hx rfl
    cases found with
    | none => exact fun s₃ he₃ => ⟨h₂.of_others he₃.others, nofun⟩
    | some form =>
      refine fun s₃ he₃ => ⟨h₂.of_others he₃.others, fun form' heq => ?_⟩
      cases heq
      rw [lastAnswer_of_others he₃.others, hx.log_eq, lastAnswer, if_pos rfl]
      rfl
  · exact ⟨(h₁.effect hx rfl).of_others he₃.others, nofun⟩

/-- **An export.** -/
theorem wp_export_submissions (hfresh : ∀ e ∈ s.log, e.pid ≠ p) : (exportLogic d.platform G).wp p
    (.export_submissions organization_id form_id actor_id format rounds)
    (FormService.export_submissions d organization_id form_id actor_id format rounds)
    (ExportPost d.platform p
      (.export_submissions organization_id form_id actor_id format rounds)) s := by
  refine Logic.wp_bind trivial (wp_access_begun (.of_fresh hfresh)) (fun _ s₁ _ h₁ => ?_)
    fun _ _ _ h₁ => h₁.walk (by decide)
  refine Logic.wp_bind trivial (wp_load_begun h₁) (fun form s₂ _ h₂ => ?_)
    fun _ _ _ h₂ => h₂.1.walk (by decide)
  obtain ⟨h₂, hform⟩ := h₂
  have hform₂ := hform form rfl
  refine Logic.wp_query_bind fun s₃ he₃ => ?_
  have h₃ := h₂.of_others he₃.others
  refine ⟨⟨fun _ _ _ => rfl, h₃.walk (by decide)⟩, fun keys s₄ hx _ => ?_,
    fun e s₄ hx _ s₅ he₅ => ?_⟩
  · have h₄ := h₃.effect hx rfl
    have hreading : Reading p form_id s₄.log := by
      rw [hx.log_eq]
      exact .inl ⟨rfl, rfl⟩
    have hcolumns : columnsRead p s₄.log = some (export_columns form keys) := by
      rw [← lastAnswer_of_others he₃.others] at hform₂
      have hform₄ : lastAnswer p formFound s₄.log = some form := by
        rw [hx.log_eq, ← hform₂]
        exact lastAnswer_cons fun _ => rfl
      have hkeys₄ : lastAnswer p keysFound s₄.log = some keys := by
        rw [hx.log_eq, lastAnswer, if_pos rfl]
        rfl
      rw [columnsRead, hform₄, hkeys₄]
      rfl
    have hwalk : Walk p form_id (export_columns form keys) [] s₄.log := .nil h₄.rows
    refine Logic.wp_bind trivial (wp_export_rows hwalk hreading hcolumns h₄.steps)
      (fun out s₅ _ hout => ?_) fun _ _ _ hout => ?_
    · obtain ⟨more, out, heq, hsends⟩ := hout
      cases heq
      obtain ⟨rest, ended⟩ := out
      refine fun s₆ he₆ => ⟨_, more, (columnsRead_of_others he₆.others).trans hsends.columns_read,
        hsends.walk.of_others he₆.others,
        (taken_of_others he₆.others).trans_le hsends.steps, ?_, ?_,
        fun hended hclean row hform hstays => ?_, hsends.unended⟩
      · rintro rfl
        rw [sent_ok, hsends.csv rfl]
        rfl
      · rintro rfl hended hclean
        rw [sent_ok, hsends.all hended (clean_ok.mp hclean), String.append_assoc]
        rfl
      · exact hsends.complete hended (clean_ok.mp hclean) row hform fun e he hp =>
          hstays e (he₆.others.mem he) hp
    · obtain ⟨_, _, heq, -⟩ := hout
      cases heq
  · exact ((h₃.effect hx rfl).of_others he₅.others).walk le_rfl

end Script

/-! ### Every run -/

section Run

variable {d : Deployment} {G : Regime} {db : Database} {w₀ w : World} {p : ℕ}
  {organization_id form_id actor_id : Uuid} {format : ExportFormat} {rounds : ℕ}
  {columns : List String} {seen : List SubmissionRecord} {row row' : SubmissionRecord}
  {stream : ExportStream}

theorem wp_export (r : Request) {s : State} (hfresh : ∀ e ∈ s.log, e.pid ≠ p) :
    (exportLogic d.platform G).wp p r (Request.code d r) (ExportPost d.platform p r) s := by
  cases r with
  | export_submissions => exact wp_export_submissions hfresh
  | _ => exact Logic.wp_mono (Logic.wp_of_pre (fun _ => trivial) _ _) fun _ _ _ _ => trivial

theorem export_safe (h : Reaches d G (World.start db) w) :
    (exportLogic d.platform G).Safe (ExportPost d.platform) w :=
  Logic.safe_of_reaches (fun _ r _ _ _ hfresh => wp_export r hfresh) (.start trivial) h

/-- **An export that has been answered** has read what it has sent. -/
theorem exported_of_returned (h : Reaches d G (World.start db) w) (hreturned : w.Returned p
    (.export_submissions organization_id form_id actor_id format rounds) stream) :
    ∃ columns seen,
      Exported d.platform p form_id format rounds columns seen stream w.shared.log :=
  (export_safe h).of_returned hreturned

/-- **An export that has not** can go on, and has taken few steps. -/
theorem of_export_in_flight (h : Reaches d G (World.start db) w)
    {code : Code FormError ExportStream} (hp : w.procs p =
      some ⟨.export_submissions organization_id form_id actor_id format rounds, some code⟩) :
    (∃ columns seen, Walk p form_id columns seen w.shared.log ∧
      taken p w.shared.log ≤ seen.length + 4) ∧
      ∀ r q, w.next p = some (r, q) → q.NeverWaits d.platform := by
  have hcode := (export_safe h).code _ _ _ hp
  cases code with
  | ret stream =>
    obtain ⟨columns, seen, hexported⟩ := hcode _ (.refl trivial)
    exact ⟨⟨columns, seen, hexported.walk, hexported.steps⟩, fun r q hnext => by
      simp [World.next, hp] at hnext⟩
  | throw e =>
    obtain ⟨columns, seen, hwalk, hsteps⟩ := hcode _ (.refl trivial)
    exact ⟨⟨columns, seen, hwalk, hsteps.trans (Nat.le_succ _)⟩, fun r q hnext => by
      simp [World.next, hp] at hnext⟩
  | call q k =>
    obtain ⟨⟨hwaits, columns, seen, hwalk, hsteps⟩, -⟩ := hcode _ (.refl trivial)
    refine ⟨⟨columns, seen, hwalk, hsteps.trans (Nat.le_succ _)⟩, fun r q' hnext => ?_⟩
    simp only [World.next, hp, Option.some.injEq, Prod.mk.injEq] at hnext
    exact hnext.2 ▸ hwaits

/-! #### Where the rows come from -/

/-- The submissions among the writes of a commit. -/
theorem mem_filterMap_stored {writes : List Write} :
    row ∈ writes.filterMap Write.stored ↔ Write.submission row ∈ writes := by
  rw [List.mem_filterMap]
  constructor
  · rintro ⟨write, hwrite, hsome⟩
    cases write with
    | submission row' =>
      cases hsome
      exact hwrite
    | _ => cases hsome
  · exact fun hwrite => ⟨_, hwrite, rfl⟩

/-- The submissions of a form that a commit stores. -/
def stores (form_id : Uuid) : Event → List SubmissionRecord
  | ⟨_, _, _, .commit writes, .ok _⟩ => (writes.filterMap Write.stored).filter (·.form_id = form_id)
  | _ => []

theorem mem_stores {p : ℕ} {r : Request} {writes : List Write} (hws : Write.submission row ∈ writes)
    (hform : row.form_id = form_id) : row ∈ stores form_id ⟨p, r, db, .commit writes, .ok ()⟩ :=
  List.mem_filter.mpr ⟨mem_filterMap_stored.mpr hws, decide_eq_true hform⟩

/-- All there is to read: what was there, and what has been stored since. -/
def storedRows (form_id : Uuid) (s₀ s : State) : List SubmissionRecord :=
  s₀.db.submissionsOf form_id ++ (s.since s₀).flatMap (stores form_id)

theorem mem_storedRows {s₀ s : State} : row ∈ storedRows form_id s₀ s ↔
    row ∈ s₀.db.submissionsOf form_id ∨ ∃ e ∈ s.since s₀, row ∈ stores form_id e := by
  rw [storedRows, List.mem_append, List.mem_flatMap]

/-- **A submission was there, or has been stored.** -/
theorem origin_of_reaches (h : Reaches d G w₀ w) (hrow : row ∈ w.shared.db.submissionsOf form_id) :
    ∃ row₀ ∈ storedRows form_id w₀.shared w.shared, row₀.Same row := by
  have hinv : ∀ row ∈ w.shared.db.submissionsOf form_id,
      (∃ row₀ ∈ w₀.shared.db.submissionsOf form_id, row₀.Same row) ∨
        ∃ e ∈ w.shared.since w₀.shared, ∃ row₀ ∈ stores form_id e, row₀.Same row := by
    refine Regime.Reaches.inv_since (I := fun new db => ∀ row ∈ db.submissionsOf form_id,
      (∃ row₀ ∈ w₀.shared.db.submissionsOf form_id, row₀.Same row) ∨
        ∃ e ∈ new, ∃ row₀ ∈ stores form_id e, row₀.Same row) h
      (fun row hrow => .inl ⟨row, hrow, .refl row⟩) ?_ (fun _ hI => hI) fun hI => hI
    intro p r q s x s' new hI hx row' hrow'
    have hold : ∀ row ∈ s.db.submissionsOf form_id, row.Same row' →
        (∃ row₀ ∈ w₀.shared.db.submissionsOf form_id, row₀.Same row') ∨
          ∃ e ∈ ⟨p, r, s.db, q, x⟩ :: new, ∃ row₀ ∈ stores form_id e, row₀.Same row' := by
      intro row hrow hsame
      rcases hI row hrow with ⟨row₀, hrow₀, hsame₀⟩ | ⟨e, he, row₀, hrow₀, hsame₀⟩
      · exact .inl ⟨row₀, hrow₀, hsame₀.trans hsame⟩
      · exact .inr ⟨e, List.mem_cons_of_mem _ he, row₀, hrow₀, hsame₀.trans hsame⟩
    cases hx with
    | fail _ => exact hold row' hrow' (.refl row')
    | run _ hrun =>
      obtain ⟨hmem, hform⟩ := mem_submissionsOf.mp hrow'
      rcases Stmt.submission_origin hrun hmem with ⟨row, hrow, hsame⟩ | ⟨writes, rfl, hws, -⟩
      · exact hold row (mem_submissionsOf.mpr ⟨hrow, hsame.form_id.trans hform⟩) hsame
      · cases hrun
        exact .inr ⟨_, List.mem_cons_self, row', mem_stores hws hform, .refl row'⟩
  rcases hinv row hrow with ⟨row₀, hrow₀, hsame⟩ | ⟨e, he, row₀, hrow₀, hsame⟩
  · exact ⟨row₀, mem_storedRows.mpr (.inl hrow₀), hsame⟩
  · exact ⟨row₀, mem_storedRows.mpr (.inr ⟨e, he, hrow₀⟩), hsame⟩

/-- The submission is there all the time. -/
def StaysStored (id : Uuid) (s₀ s : State) : Prop :=
  ∀ e ∈ s.since s₀, ∃ row ∈ e.before.submissions.rows, row.id = id

/-- **A submission that stays remains the same**, but for its status. -/
theorem same_of_stays (h : Reaches d G w₀ w) (hrow : row ∈ w₀.shared.db.submissions.rows)
    (hstays : StaysStored row.id w₀.shared w.shared) : ∀ e ∈ w.shared.since w₀.shared,
      ∀ row' ∈ e.before.submissions.rows, row'.id = row.id → row'.Same row := by
  refine (Regime.Reaches.inv_since (I := fun (new : List Event) (db : Database) =>
    (∀ e ∈ new, ∃ row' ∈ e.before.submissions.rows, row'.id = row.id) →
      (∀ e ∈ new, ∀ row' ∈ e.before.submissions.rows, row'.id = row.id → row'.Same row) ∧
        ∀ row' ∈ db.submissions.rows, row'.id = row.id → row'.Same row) h ?_ ?_ (fun _ hI => hI)
    (fun hI => hI) hstays).1
  · refine fun _ => ⟨fun e he => absurd he List.not_mem_nil, fun row' hrow' hid => ?_⟩
    rw [Table.eq_of_key_eq _ hrow' hrow hid]
    exact .refl row
  · intro p r q s x s' new hI hx hthere
    obtain ⟨hnow, hbefore⟩ := List.forall_mem_cons.mp hthere
    obtain ⟨hsame, hdb⟩ := hI hbefore
    refine ⟨List.forall_mem_cons.mpr ⟨hdb, hsame⟩, ?_⟩
    cases hx with
    | fail _ => exact hdb
    | run _ hrun =>
      intro row' hrow' hid
      rcases Stmt.submission_origin hrun hrow' with ⟨row₁, hrow₁, hsame₁⟩ | ⟨_, -, -, hnew⟩
      · exact hsame₁.symm.trans (hdb row₁ hrow₁ (hsame₁.id.trans hid))
      · obtain ⟨row₁, hrow₁, hid₁⟩ := hnow
        exact absurd (hid₁.trans hid.symm) (Table.hasKey_eq_false.mp hnew row₁ hrow₁)

/-! #### Between two points of a run -/

/-- What `p` does after it has arrived is done since. -/
theorem mem_since_of_pid (h : Reaches d G w₀ w) (hfresh : ∀ e ∈ w₀.shared.log, e.pid ≠ p)
    {e : Event} (he : e ∈ w.shared.log) (hp : e.pid = p) : e ∈ w.shared.since w₀.shared := by
  rw [h.log_eq] at he
  exact (List.mem_append.mp he).resolve_right fun hold => hfresh e hold hp

/-- A row that has been read was in the table at some time since. -/
theorem Walk.row_at (hwalk : Walk p form_id columns seen w.shared.log) (h : Reaches d G w₀ w)
    (hfresh : ∀ e ∈ w₀.shared.log, e.pid ≠ p) (hrow : row ∈ seen) :
    ∃ e ∈ w.shared.since w₀.shared, row ∈ e.before.submissionsOf form_id := by
  obtain ⟨e, he, earlier, hp, hmem, -⟩ := (hwalk.read row hrow).exists_mem
  exact ⟨e, mem_since_of_pid h hfresh he hp, hmem⟩

/-- There is no more to read than there is. -/
theorem Walk.length_le (hwalk : Walk p form_id columns seen w.shared.log) (h : Reaches d G w₀ w)
    (hfresh : ∀ e ∈ w₀.shared.log, e.pid ≠ p) :
    seen.length ≤ (storedRows form_id w₀.shared w.shared).length := by
  refine hwalk.increasing.length_le fun row hrow => ?_
  obtain ⟨e, he, hmem⟩ := hwalk.row_at h hfresh hrow
  obtain ⟨w₁, hto, hdb, hfrom⟩ := h.visits_of_mem he
  obtain ⟨row₀, hrow₀, hsame⟩ := origin_of_reaches hto (hdb ▸ hmem)
  refine ⟨row₀, mem_storedRows.mpr ?_, hsame.place⟩
  exact (mem_storedRows.mp hrow₀).imp_right fun ⟨e', he', hstores⟩ =>
    ⟨e', hto.mem_since hfrom he', hstores⟩

end Run

end SubmitSnap
