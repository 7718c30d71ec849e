import Mathlib

/-!
# Moments and spans with limits

Machine arithmetic on lengths of time and on points in time, each of which has limits of its own: an
unsigned product of 64 bits, a span of at most `i64::MAX` milliseconds, and a moment between the
years -262143 and 262142. What does not fit is `none`; whether a product that does not fit is
noticed depends on how the program was built.

Spans and moments are counted in nanoseconds, moments from 1970.

The types carry their limits as fields, so that a moment out of range cannot be built, and an
operation that may leave the range has to say so. What fits is always a comparison of integers.

## Main definitions

* `mulU64` — a product of 64 bits.
* `TimeDelta`, `DateTime` — spans and moments, with their limits.

## Main results

* `TimeDelta.seconds_eq_some_iff`, `DateTime.add_eq_some_iff`, `DateTime.sub_eq_some_iff` — what
  fits.
-/

namespace Checked

def i64Max : ℕ := 2 ^ 63 - 1

/-- A product of two unsigned numbers of 64 bits. If it does not fit, the program stops when it was
built with overflow checks, and goes on with what is left of it when it was not. -/
def mulU64 (overflow_checks : Bool) (a b : ℕ) : Option ℕ :=
  if a * b < 2 ^ 64 then some (a * b)
  else if overflow_checks then none else some (a * b % 2 ^ 64)

/-- Nanoseconds in a second. -/
def second : ℤ := 1000000000

/-! ### Spans -/

/-- A span of at most `i64::MAX` milliseconds either way. -/
structure TimeDelta where
  nanos : ℤ
  le : nanos ≤ (i64Max : ℤ) * 1000000
  ge : -((i64Max : ℤ) * 1000000) ≤ nanos
  deriving DecidableEq

namespace TimeDelta

def zero : TimeDelta := ⟨0, by decide, by decide⟩

/-- A span of so many seconds. -/
def seconds (n : ℕ) : Option TimeDelta :=
  if h : n * second ≤ (i64Max : ℤ) * 1000000 then
    some ⟨n * second, h, by have : 0 ≤ n * second := Int.mul_nonneg (by omega) (by decide); omega⟩
  else none

end TimeDelta

/-! ### Moments -/

/-- A moment from the first of the year -262143 to the last of the year 262142. -/
structure DateTime where
  nanos : ℤ
  ge : -8334601228800 * second ≤ nanos
  lt : nanos < 8210266876800 * second
  deriving DecidableEq

namespace DateTime

instance : LT DateTime := ⟨fun t u => t.nanos < u.nanos⟩

instance : LE DateTime := ⟨fun t u => t.nanos ≤ u.nanos⟩

instance (t u : DateTime) : Decidable (t < u) := inferInstanceAs (Decidable (t.nanos < u.nanos))

instance (t u : DateTime) : Decidable (t ≤ u) := inferInstanceAs (Decidable (t.nanos ≤ u.nanos))

/-- The moment that is so many nanoseconds after 1970, if there is one. -/
def of (nanos : ℤ) : Option DateTime :=
  if h : -8334601228800 * second ≤ nanos ∧ nanos < 8210266876800 * second then
    some ⟨nanos, h.1, h.2⟩
  else none

def add (t : DateTime) (d : TimeDelta) : Option DateTime := of (t.nanos + d.nanos)

def sub (t : DateTime) (d : TimeDelta) : Option DateTime := of (t.nanos - d.nanos)

end DateTime

variable {t u : DateTime} {d : TimeDelta} {n : ℕ} {nanos : ℤ}

theorem DateTime.of_eq_some_iff : DateTime.of nanos = some u ↔ u.nanos = nanos := by
  unfold DateTime.of
  constructor
  · intro h
    split at h
    · rw [← Option.some.inj h]
    · cases h
  · rintro rfl
    rw [dif_pos ⟨u.ge, u.lt⟩]

theorem DateTime.add_eq_some_iff : t.add d = some u ↔ u.nanos = t.nanos + d.nanos :=
  of_eq_some_iff

theorem DateTime.sub_eq_some_iff : t.sub d = some u ↔ u.nanos = t.nanos - d.nanos :=
  of_eq_some_iff

theorem TimeDelta.seconds_eq_some_iff :
    TimeDelta.seconds n = some d ↔ d.nanos = n * second := by
  unfold TimeDelta.seconds
  constructor
  · intro h
    split at h
    · rw [← Option.some.inj h]
    · cases h
  · intro h
    have hle := d.le
    rw [h] at hle
    rw [dif_pos hle]
    cases d
    cases h
    rfl

theorem TimeDelta.seconds_eq_none_iff :
    TimeDelta.seconds n = none ↔ (i64Max : ℤ) * 1000000 < n * second := by
  unfold TimeDelta.seconds
  split
  · next h => exact ⟨nofun, fun hlt => absurd h (not_le.mpr hlt)⟩
  · next h => exact ⟨fun _ => not_le.mp h, fun _ => rfl⟩

end Checked
