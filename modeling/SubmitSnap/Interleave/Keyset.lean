import Mathlib

/-!
# Keyset pagination

A long table is read page by page, each page continuing after the last row of the one before. Rows
come and go between two pages, and nothing is remembered but the place of the last row read. That is
still enough: what has been read is in order, and a row that is in the table whenever a page is read
has been read as soon as the cursor is past it.

## The argument

There are two halves, and they meet in the cursor. A page never goes back: it is taken from what
is after the cursor, in order, so the pages put together are strictly increasing and no place is
read twice. And a page never skips: it is a prefix of what is after the cursor, so whatever is
there and is not on the page comes after all of the page. A row that is there at every page is
thus either read or still ahead, and the walk only ends when nothing is ahead.

Nothing else may be said. A row that is inserted behind the cursor is never read, and one that is
deleted ahead of it is never missed; both are as they should be for a reader that keeps no
snapshot.

## Main definitions

* `Keyset.page` — one page.
* `Keyset.cursor` — where the next page starts.

## Main results

* `Keyset.increasing_append` — the pages of a walk are in strictly increasing order.
* `Keyset.read_append`, `Keyset.passed_of_page_nil` — a row that stays is read before the walk ends.
-/

namespace Interleave.Keyset

variable {ρ κ : Type} [LinearOrder κ] {place : ρ → κ} {rows seen : List ρ} {after : Option κ}
  {limit : ℕ} {r last : ρ} {k : κ}

/-- The rows after the cursor, in the order of their places. -/
def remaining (place : ρ → κ) (rows : List ρ) (after : Option κ) : List ρ :=
  (rows.filter fun r => after.all (· < place r)).insertionSort fun r r' => place r ≤ place r'

/-- The rows of one page: the first of those that remain. -/
def page (place : ρ → κ) (rows : List ρ) (after : Option κ) (limit : ℕ) : List ρ :=
  (remaining place rows after).take limit

/-- Where a walk that has seen these rows continues. -/
def cursor (place : ρ → κ) (seen : List ρ) : Option κ := seen.getLast?.map place

/-- The walk is past the place `k`. -/
def Passed (place : ρ → κ) (seen : List ρ) (k : κ) : Prop := ∃ c ∈ cursor place seen, k ≤ c

/-- Strictly increasing in their places. -/
def Increasing (place : ρ → κ) (rows : List ρ) : Prop :=
  rows.Pairwise fun r r' => place r < place r'

theorem cursor_append (h : (page place rows after limit).getLast? = some last) :
    cursor place (seen ++ page place rows after limit) = some (place last) := by
  rw [cursor, List.getLast?_append, h]
  rfl

theorem mem_remaining :
    r ∈ remaining place rows after ↔ r ∈ rows ∧ ∀ c ∈ after, c < place r := by
  rw [remaining, List.mem_insertionSort, List.mem_filter]
  exact and_congr_right fun _ => by simp [Option.all_eq_true]

theorem mem_of_mem_page (h : r ∈ page place rows after limit) :
    r ∈ rows ∧ ∀ c ∈ after, c < place r :=
  mem_remaining.mp (List.mem_of_mem_take h)

theorem increasing_remaining (hrows : (rows.map place).Nodup) :
    Increasing place (remaining place rows after) := by
  have hsorted : (remaining place rows after).Pairwise fun r r' => place r ≤ place r' := by
    have : Std.Total fun r r' : ρ => place r ≤ place r' := ⟨fun _ _ => le_total _ _⟩
    have : IsTrans ρ fun r r' => place r ≤ place r' := ⟨fun _ _ _ => le_trans⟩
    exact List.pairwise_insertionSort _ _
  have hnodup : ((remaining place rows after).map place).Nodup :=
    ((List.perm_insertionSort _ _).map place).nodup_iff.mpr
      ((List.filter_sublist.map place).nodup hrows)
  refine (hsorted.and (List.pairwise_map.mp hnodup)).imp fun h => ?_
  exact lt_of_le_of_ne h.1 h.2

theorem increasing_page (hrows : (rows.map place).Nodup) :
    Increasing place (page place rows after limit) :=
  (increasing_remaining hrows).sublist (List.take_sublist _ _)

/-- A page leaves nothing out: what it does not reach is after all of it. -/
theorem mem_page_of_le (hrows : (rows.map place).Nodup) (hr : r ∈ rows)
    (hafter : ∀ c ∈ after, c < place r)
    (hlast : (page place rows after limit).getLast? = some last) (hle : place r ≤ place last) :
    r ∈ page place rows after limit := by
  have hmem : r ∈ remaining place rows after := mem_remaining.mpr ⟨hr, hafter⟩
  have hsplit : Increasing place (remaining place rows after) := increasing_remaining hrows
  rw [← List.take_append_drop limit (remaining place rows after)] at hmem hsplit
  rcases List.mem_append.mp hmem with hpage | hrest
  · exact hpage
  · have hlt := (List.pairwise_append.mp hsplit).2.2 last (List.mem_of_getLast? hlast) r hrest
    exact absurd hle (not_le.mpr hlt)

/-- In increasing rows the last one is the greatest. -/
theorem Increasing.le_cursor (h : Increasing place seen) (hr : r ∈ seen) :
    ∃ c ∈ cursor place seen, place r ≤ c := by
  cases hlast : seen.getLast? with
  | none =>
    rw [List.getLast?_eq_none_iff.mp hlast] at hr
    cases hr
  | some last =>
    refine ⟨place last, by rw [cursor, hlast]; rfl, ?_⟩
    obtain ⟨init, rfl⟩ := List.getLast?_eq_some_iff.mp hlast
    rcases List.mem_append.mp hr with hinit | hself
    · exact le_of_lt ((List.pairwise_append.mp h).2.2 r hinit last List.mem_cons_self)
    · rw [List.mem_singleton.mp hself]

/-- Rows of one place are one row. -/
theorem Increasing.filter_eq (h : Increasing place seen) {sel : ρ → Bool} (hr : r ∈ seen)
    (hsel : sel r = true) (hplace : ∀ r' ∈ seen, sel r' = true → place r' = place r) :
    seen.filter sel = [r] := by
  have hmem : r ∈ seen.filter sel := List.mem_filter.mpr ⟨hr, hsel⟩
  have hone : ∀ r' ∈ seen.filter sel, place r' = place r := fun r' hr' =>
    hplace r' (List.mem_of_mem_filter hr') (List.mem_filter.mp hr').2
  have hincreasing : Increasing place (seen.filter sel) := h.sublist List.filter_sublist
  cases hfilter : seen.filter sel with
  | nil =>
    rw [hfilter] at hmem
    cases hmem
  | cons r₁ rest =>
    rw [hfilter] at hmem hone hincreasing
    cases rest with
    | nil => rw [List.mem_singleton.mp hmem]
    | cons r₂ rest =>
      have hlt := (List.pairwise_cons.mp hincreasing).1 r₂ List.mem_cons_self
      rw [hone r₁ List.mem_cons_self, hone r₂ (List.mem_cons_of_mem _ List.mem_cons_self)] at hlt
      exact absurd hlt (lt_irrefl _)

/-- As many rows as places. -/
theorem Increasing.length_le (h : Increasing place seen)
    (hrows : ∀ r ∈ seen, ∃ r' ∈ rows, place r' = place r) : seen.length ≤ rows.length := by
  have hnodup : (seen.map place).Nodup :=
    List.pairwise_map.mpr (h.imp fun hlt => hlt.ne)
  have hsub : seen.map place ⊆ rows.map place := by
    intro k hk
    obtain ⟨r, hr, rfl⟩ := List.mem_map.mp hk
    obtain ⟨r', hr', heq⟩ := hrows r hr
    exact List.mem_map.mpr ⟨r', hr', heq⟩
  simpa using (List.subperm_of_subset hnodup hsub).length_le

/-- **A walk is in order**, whatever has happened to the table between two pages. -/
theorem increasing_append (hrows : (rows.map place).Nodup) (h : Increasing place seen) :
    Increasing place (seen ++ page place rows (cursor place seen) limit) := by
  refine List.pairwise_append.mpr ⟨h, increasing_page hrows, fun r hr r' hr' => ?_⟩
  obtain ⟨c, hc, hle⟩ := h.le_cursor hr
  exact lt_of_le_of_lt hle ((mem_of_mem_page hr').2 c hc)

/-- **A row that is there is read** before the walk passes its place. Rows may be updated between
two pages, so "it" is whatever satisfies `φ`. -/
theorem read_append {φ : ρ → Prop} (hrows : (rows.map place).Nodup) (hr : r ∈ rows) (hφ : φ r)
    (hseen : Passed place seen (place r) → ∃ r' ∈ seen, φ r')
    (hlast : (page place rows (cursor place seen) limit).getLast? = some last)
    (hpassed : Passed place (seen ++ page place rows (cursor place seen) limit) (place r)) :
    ∃ r' ∈ seen ++ page place rows (cursor place seen) limit, φ r' := by
  by_cases hbefore : Passed place seen (place r)
  · obtain ⟨r', hr', hφ'⟩ := hseen hbefore
    exact ⟨r', List.mem_append_left _ hr', hφ'⟩
  · have hafter : ∀ c ∈ cursor place seen, c < place r := fun c hc =>
      lt_of_not_ge fun hle => hbefore ⟨c, hc, hle⟩
    obtain ⟨c, hc, hle⟩ := hpassed
    rw [cursor_append hlast] at hc
    cases hc
    exact ⟨r, List.mem_append_right _ (mem_page_of_le hrows hr hafter hlast hle), hφ⟩

/-- An empty page is the end: the walk has passed everything that is there. -/
theorem passed_of_page_nil (hlimit : 0 < limit) (hr : r ∈ rows)
    (h : page place rows (cursor place seen) limit = []) : Passed place seen (place r) := by
  by_contra hbefore
  have hmem : r ∈ remaining place rows (cursor place seen) := mem_remaining.mpr ⟨hr, fun c hc =>
    lt_of_not_ge fun hle => hbefore ⟨c, hc, hle⟩⟩
  rw [page, List.take_eq_nil_iff] at h
  rcases h with h | h
  · exact hlimit.ne' h
  · rw [h] at hmem
    cases hmem

end Interleave.Keyset
