import Mathlib

/-!
# Comma-separated values

A reader for RFC 4180, with records that end in a line feed, as a machine that takes one character
after the other, and a writer that quotes a cell only when it has to. What the writer has written
the reader reads back, whatever the cells contain.

The machine is in one of four modes: at the beginning of a cell, in an unquoted one, between the
quotes of a quoted one, or behind a quote that may be the closing one or the first half of a doubled
one.

## The argument

The reader never needs to look ahead, so it is enough to see what it makes of one cell and the
separator behind it, from the mode at the beginning of a cell and with anything that has been read
before (`read_cell`). A cell without special characters is read as it is. In a quoted one a quote
is doubled, and the reader is behind the first of the two in the mode in which the second belongs
to the cell; at the last one it is in the same mode, and the separator ends the cell. Records and
files follow by induction.

## Main definitions

* `parse`, `step` — the reader.
* `print`, `printRecord`, `quote` — the writer.

## Main results

* `parse_print` — reading what was written.
-/

namespace Csv

inductive Mode where
  | fresh
  | plain
  | quoted
  | closing
  deriving DecidableEq, Repr

/-- What has been read: the beginning of a cell, of its record, and the records before it. -/
structure State where
  mode : Mode
  cell : List Char
  record : List (List Char)
  records : List (List (List Char))
  deriving DecidableEq

def State.start : State := ⟨.fresh, [], [], []⟩

/-- The cell is complete. -/
def State.endCell (s : State) : State := ⟨.fresh, [], s.record ++ [s.cell], s.records⟩

/-- The cell is complete, and the last one of its record. -/
def State.endRecord (s : State) : State := ⟨.fresh, [], [], s.records ++ [s.record ++ [s.cell]]⟩

/-- A separator. -/
def separate (s : State) (c : Char) : Option State :=
  if c = ',' then some s.endCell else if c = '\n' then some s.endRecord else none

/-- Reads one character; `none` if it cannot stand there. -/
def step (s : State) (c : Char) : Option State :=
  match s.mode with
  | .quoted =>
    if c = '"' then some { s with mode := .closing } else some { s with cell := s.cell ++ [c] }
  | .closing =>
    if c = '"' then some { s with mode := .quoted, cell := s.cell ++ [c] } else separate s c
  | .fresh | .plain =>
    if c = '"' then if s.mode = .fresh then some { s with mode := .quoted } else none
    else if c = ',' ∨ c = '\n' then separate s c
    else if c = '\r' then none
    else some { s with mode := .plain, cell := s.cell ++ [c] }

/-- The records of a text; `none` if it is not well formed, or does not end with a record. -/
def parse (text : List Char) : Option (List (List (List Char))) :=
  (text.foldlM step .start).bind fun s =>
    if s.mode = .fresh ∧ s.record = [] then some s.records else none

/-- The characters that a cell can only hold between quotes. -/
def special (c : Char) : Bool := c = ',' || c = '"' || c = '\n' || c = '\r'

/-- A cell, quoted if it has to be. -/
def quote (cell : List Char) : List Char :=
  if cell.any special then
    '"' :: (cell.flatMap fun c => if c = '"' then ['"', '"'] else [c]) ++ ['"']
  else cell

/-- A record, with the line feed that ends it. -/
def printRecord : List (List Char) → List Char
  | [] => ['\n']
  | cell :: cells => quote cell ++ (cells.flatMap fun cell => ',' :: quote cell) ++ ['\n']

/-- Records, one after the other. -/
def print (records : List (List (List Char))) : List Char := records.flatMap printRecord

variable {s : State} {c : Char} {cell rest : List Char} {record : List (List Char)}
  {records : List (List (List Char))}

/-- A cell that needs no quotes is read as it is. -/
theorem read_plain (rest : List Char) (hmode : s.mode = .fresh ∨ s.mode = .plain)
    (hplain : cell.any special = false) :
    ∃ mode, (mode = .fresh ∨ mode = .plain) ∧ (cell ++ rest).foldlM step s =
      rest.foldlM step { s with mode := mode, cell := s.cell ++ cell } := by
  induction cell generalizing s with
  | nil => exact ⟨s.mode, hmode, by rw [List.nil_append, List.append_nil]⟩
  | cons c cell ih =>
    rw [List.any_cons, Bool.or_eq_false_iff] at hplain
    have hstep : step s c = some { s with mode := .plain, cell := s.cell ++ [c] } := by
      have hc := hplain.1
      simp only [special, Bool.or_eq_false_iff, decide_eq_false_iff_not] at hc
      rcases hmode with hmode | hmode <;> simp [step, hmode, hc]
    obtain ⟨mode, hmode', hrest⟩ := ih (s := { s with mode := .plain, cell := s.cell ++ [c] })
      (.inr rfl) hplain.2
    refine ⟨mode, hmode', ?_⟩
    rw [List.cons_append, List.foldlM_cons, hstep]
    change (cell ++ rest).foldlM step _ = _
    rw [hrest, List.append_assoc]
    rfl

/-- What stands between quotes is read up to the closing one. -/
theorem read_quoted (hmode : s.mode = .quoted) :
    ((cell.flatMap fun c => if c = '"' then ['"', '"'] else [c]) ++ '"' :: rest).foldlM step s =
      rest.foldlM step { s with mode := .closing, cell := s.cell ++ cell } := by
  induction cell generalizing s with
  | nil => simp [step, hmode]
  | cons c cell ih =>
    rw [List.flatMap_cons, List.append_assoc]
    have hread : ∀ rest, ((if c = '"' then ['"', '"'] else [c]) ++ rest).foldlM step s =
        rest.foldlM step { s with mode := .quoted, cell := s.cell ++ [c] } := by
      intro rest
      by_cases hquote : c = '"'
      · simp [step, hmode, hquote]
      · simp [step, hmode, hquote]
    rw [hread, ih rfl, List.append_assoc]
    rfl

/-- **A cell ends where it should**: with the separator behind it. -/
theorem read_cell (hc : c = ',' ∨ c = '\n') (hmode : s.mode = .fresh) (hcell : s.cell = []) :
    (quote cell ++ c :: rest).foldlM step s =
      (separate { s with cell := cell } c).bind (rest.foldlM step ·) := by
  unfold quote
  split
  · rw [List.cons_append, List.cons_append, List.append_assoc, List.foldlM_cons]
    have hopen : step s '"' = some { s with mode := .quoted } := by simp [step, hmode]
    rw [hopen]
    change (_ ++ '"' :: c :: rest).foldlM step _ = _
    rw [read_quoted rfl, List.foldlM_cons]
    rcases hc with rfl | rfl <;> simp [step, separate, hcell, State.endCell, State.endRecord]
  · next hplain =>
    obtain ⟨mode, hmode', hread⟩ := read_plain (c :: rest) (.inl hmode)
      (Bool.not_eq_true _ ▸ hplain)
    rw [hread, List.foldlM_cons]
    rcases hmode' with rfl | rfl <;> rcases hc with rfl | rfl <;>
      simp [step, separate, hcell, State.endCell, State.endRecord]

/-- The rest of a record. -/
theorem read_cells {cells : List (List Char)} :
    (quote cell ++ ((cells.flatMap fun cell => ',' :: quote cell) ++ ('\n' :: rest))).foldlM step
      ⟨.fresh, [], record, records⟩ =
      rest.foldlM step ⟨.fresh, [], [], records ++ [record ++ cell :: cells]⟩ := by
  induction cells generalizing cell record with
  | nil =>
    rw [List.flatMap_nil, List.nil_append, read_cell (.inr rfl) rfl rfl]
    rfl
  | cons cell' cells ih =>
    rw [List.flatMap_cons, List.append_assoc, List.cons_append, read_cell (.inl rfl) rfl rfl]
    change (quote cell' ++ _).foldlM step _ = _
    rw [State.endCell, ih, List.append_assoc]
    rfl

theorem read_record (hrecord : record ≠ []) :
    (printRecord record ++ rest).foldlM step ⟨.fresh, [], [], records⟩ =
      rest.foldlM step ⟨.fresh, [], [], records ++ [record]⟩ := by
  cases record with
  | nil => exact absurd rfl hrecord
  | cons cell cells =>
    rw [printRecord, List.append_assoc, List.append_assoc, List.singleton_append, read_cells,
      List.nil_append]

/-- **Reading what was written.** -/
theorem parse_print (h : ∀ record ∈ records, record ≠ []) :
    parse (print records) = some records := by
  have hread : ∀ done, (print records).foldlM step ⟨.fresh, [], [], done⟩ =
      some ⟨.fresh, [], [], done ++ records⟩ := by
    induction records with
    | nil => exact fun done => by rw [List.append_nil]; rfl
    | cons record records ih =>
      intro done
      rw [List.forall_mem_cons] at h
      rw [print, List.flatMap_cons, read_record h.1]
      change (print records).foldlM step _ = _
      rw [ih h.2, List.append_assoc]
      rfl
  rw [parse, State.start, hread []]
  rfl

end Csv
