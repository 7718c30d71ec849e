import Mathlib

/-!
# Row locks

The four strengths of row lock PostgreSQL hands out, which pairs of them exclude each other, and
the list of locks held at one time. A lock is taken by a statement, held by the transaction it
belongs to and released when that transaction ends; nothing else ever releases one.

A holder never conflicts with itself, so a transaction may take the same row twice and may
strengthen a lock it has.

## Why locks are enough

The locks are a list and not a function, because a row may be locked by many at once as long as
the modes agree. `Exclusive` is the invariant: whoever conflicts is the same. It is kept by taking
only what is granted, since what is granted conflicts with nobody else by definition. The use of
it is the other way round: from "I hold it" and "he was granted it" it follows that the modes do
not conflict, and for the modes the code takes that is absurd. No statement may ever take back a
lock of somebody else; there is no operation that could.

## Main definitions

* `Locks.Exclusive` — no two holders have conflicting locks on one row.
* `Locks.Moved` — what one process does to the locks: it takes what is granted and ends its
  transaction.

## Main results

* `Locks.not_grantable` — while a row is locked, nobody else is granted a conflicting lock on it.
* `Locks.Moved.exclusive`, `Locks.Moved.holds` — everybody's moves keep the locks exclusive, and
  leave mine in place.
-/

namespace Interleave

/-- The strengths of a row lock, weakest first. `SELECT … FOR UPDATE` and a `DELETE` take
`update`, an `UPDATE` of columns no foreign key refers to takes `noKeyUpdate`, and a foreign-key
check takes `keyShare` on the row it refers to. -/
inductive LockMode where
  | keyShare
  | share
  | noKeyUpdate
  | update
  deriving DecidableEq, Repr

/-- Whether two transactions are refused these locks on one row at the same time. -/
def LockMode.conflicts : LockMode → LockMode → Bool
  | .keyShare, .update => true
  | .update, .keyShare => true
  | .keyShare, _ => false
  | _, .keyShare => false
  | .share, .share => false
  | _, _ => true

theorem LockMode.conflicts_comm (m m' : LockMode) : m.conflicts m' = m'.conflicts m := by
  cases m <;> cases m' <;> rfl

/-- One lock: who holds it, on which row, how strongly. -/
structure Lock (κ : Type) where
  holder : ℕ
  row : κ
  mode : LockMode
  deriving DecidableEq

/-- The locks held at one time. -/
abbrev Locks (κ : Type) : Type := List (Lock κ)

namespace Locks

variable {κ : Type}

/-- `p` takes `mode` on `row`. -/
def acquire (ls : Locks κ) (p : ℕ) (row : κ) (mode : LockMode) : Locks κ := ⟨p, row, mode⟩ :: ls

/-- The end of `p`'s transaction. -/
def release (ls : Locks κ) (p : ℕ) : Locks κ := ls.filter fun l => l.holder != p

/-- `p` holds `mode` on `row`. -/
def Holds (ls : Locks κ) (p : ℕ) (row : κ) (mode : LockMode) : Prop := ⟨p, row, mode⟩ ∈ ls

variable {ls : Locks κ} {p q : ℕ} {row row' : κ} {mode mode' : LockMode}

theorem holds_acquire_self : (ls.acquire p row mode).Holds p row mode := List.mem_cons_self

theorem Holds.acquire (h : ls.Holds p row mode) : (ls.acquire q row' mode').Holds p row mode :=
  List.mem_cons_of_mem _ h

theorem Holds.release_of_ne (h : ls.Holds p row mode) (hpq : p ≠ q) :
    (ls.release q).Holds p row mode := by
  simpa [release, Holds, hpq] using h

/-- Conflicting locks on one row have one holder. -/
def Exclusive (ls : Locks κ) : Prop :=
  ∀ l ∈ ls, ∀ l' ∈ ls, l.row = l'.row → l.mode.conflicts l'.mode = true → l.holder = l'.holder

theorem Exclusive.eq_of_holds (h : ls.Exclusive) (hp : ls.Holds p row mode)
    (hq : ls.Holds q row mode') (hc : mode.conflicts mode' = true) : p = q :=
  h _ hp _ hq rfl hc

theorem exclusive_nil : Exclusive ([] : Locks κ) := fun _ hl => absurd hl List.not_mem_nil

theorem Exclusive.release (h : ls.Exclusive) : (ls.release p).Exclusive :=
  fun l hl l' hl' => h l (List.mem_of_mem_filter hl) l' (List.mem_of_mem_filter hl')

variable [DecidableEq κ]

/-- Whether `p` would be granted `mode` on `row` without waiting. -/
def grantable (ls : Locks κ) (p : ℕ) (row : κ) (mode : LockMode) : Bool :=
  ls.all fun l => l.holder == p || l.row != row || !mode.conflicts l.mode

/-- **Exclusion.** Somebody else's lock is respected. -/
theorem not_grantable (h : ls.Holds p row mode) (hpq : p ≠ q)
    (hc : mode'.conflicts mode = true) : ls.grantable q row mode' = false := by
  rw [← Bool.not_eq_true, grantable, List.all_eq_true]
  intro hall
  simpa [hpq, hc] using hall _ h

/-! ### What a process does to the locks -/

theorem Exclusive.acquire (h : ls.Exclusive) (hg : ls.grantable p row mode = true) :
    (ls.acquire p row mode).Exclusive := by
  -- The new lock conflicts with none of another holder.
  have hnew : ∀ l ∈ ls, l.row = row → mode.conflicts l.mode = true → l.holder = p := by
    intro l hl hrow hc
    have hgl := List.all_eq_true.mp hg l hl
    simpa [hrow, hc] using hgl
  intro l hl l' hl' hrow hc
  rcases List.mem_cons.mp hl with rfl | hl <;> rcases List.mem_cons.mp hl' with rfl | hl'
  · rfl
  · exact (hnew l' hl' hrow.symm hc).symm
  · rw [LockMode.conflicts_comm] at hc
    exact hnew l hl hrow hc
  · exact h l hl l' hl' hrow hc

/-- From `ls`, `p` has taken locks it was granted, and may have ended its transaction. -/
inductive Moved (p : ℕ) (ls : Locks κ) : Locks κ → Prop where
  | refl : Moved p ls ls
  | acquire {ls' : Locks κ} {row : κ} {mode : LockMode} (h : Moved p ls ls')
      (hg : ls'.grantable p row mode = true) : Moved p ls (ls'.acquire p row mode)
  | release {ls' : Locks κ} (h : Moved p ls ls') : Moved p ls (ls'.release p)

variable {ls' : Locks κ}

theorem Moved.exclusive (h : Moved p ls ls') (hls : ls.Exclusive) : ls'.Exclusive := by
  induction h with
  | refl => exact hls
  | acquire _ hg ih => exact ih.acquire hg
  | release _ ih => exact ih.release

/-- The others' locks stay. -/
theorem Moved.holds (h : Moved p ls ls') (hq : ls.Holds q row mode) (hne : q ≠ p) :
    ls'.Holds q row mode := by
  induction h with
  | refl => exact hq
  | acquire _ _ ih => exact ih.acquire
  | release _ ih => exact ih.release_of_ne hne

/-- What is granted stays granted while one takes more. -/
theorem grantable_acquire (hg : ls.grantable p row mode = true) :
    (ls.acquire p row' mode').grantable p row mode = true := by
  rw [grantable, acquire, List.all_cons, Bool.and_eq_true]
  exact ⟨by simp, hg⟩

end Locks

end Interleave
