import Mathlib

/-!
# Internet addresses, and their textual form

The addresses of both families, and the strict grammar for them: four decimal octets without
leading zeros, or eight groups of up to four hexadecimal digits, of which one run of zeros may be
left out and the last two may be written like an IPv4 address. A parser takes what it can from the
front of a text and hands on the rest.

## Main definitions

* `V4`, `V6`, `Addr` — addresses.
* `readNumber`, `readV4`, `readV6` — the parsers.
* `parse` — a text that is an address, from its first character to its last.
-/

namespace Ip

/-! ### Addresses -/

-- One and the same proof for every literal below.
instance neZero_octet : NeZero 256 := ⟨by decide⟩

instance neZero_group : NeZero 65536 := ⟨by decide⟩

structure V4 where
  a : Fin 256
  b : Fin 256
  c : Fin 256
  d : Fin 256
  deriving DecidableEq, Repr

structure V6 where
  segments : List (Fin 65536)
  length_eq : segments.length = 8
  deriving DecidableEq, Repr

inductive Addr where
  | v4 (addr : V4)
  | v6 (addr : V6)
  deriving DecidableEq, Repr

/-- Eight groups make an address. -/
def V6.of (segments : List (Fin 65536)) : Option V6 :=
  if h : segments.length = 8 then some ⟨segments, h⟩ else none

/-- The two groups at the end of an IPv6 address that is written with an IPv4 address in it. -/
def V4.groups (addr : V4) : List (Fin 65536) :=
  [Fin.ofNat 65536 (addr.a * 256 + addr.b), Fin.ofNat 65536 (addr.c * 256 + addr.d)]

/-! ### Numbers -/

/-- The value of a digit, of either case. -/
def toDigit (radix : ℕ) (c : Char) : Option ℕ :=
  let n := c.toNat
  let value :=
    if '0'.toNat ≤ n ∧ n ≤ '9'.toNat then some (n - '0'.toNat)
    else if 'a'.toNat ≤ n ∧ n ≤ 'z'.toNat then some (n - 'a'.toNat + 10)
    else if 'A'.toNat ≤ n ∧ n ≤ 'Z'.toNat then some (n - 'A'.toNat + 10)
    else none
  value.filter (· < radix)

def isDigit (radix : ℕ) (c : Char) : Bool := (toDigit radix c).isSome

/-- The number that digits denote, most significant first. -/
def ofDigits (radix : ℕ) (digits : List Char) : ℕ :=
  digits.foldl (fun n c => n * radix + (toDigit radix c).getD 0) 0

/-- The digits at the front of a text, if there are between one and `maxDigits` of them and their
number is small enough. -/
def readNumber (radix maxDigits bound : ℕ) (zeroPrefix : Bool) (s : List Char) :
    Option (Fin bound × List Char) :=
  let digits := s.takeWhile (isDigit radix)
  if digits.length = 0 ∨ maxDigits < digits.length then none
  else if !zeroPrefix ∧ digits.head? = some '0' ∧ 1 < digits.length then none
  else if h : ofDigits radix digits < bound then
    some (⟨ofDigits radix digits, h⟩, s.dropWhile (isDigit radix))
  else none

section

variable {radix maxDigits bound n : ℕ} {zeroPrefix : Bool} {s rest : List Char} {c : Char}
  {number : Fin bound}

theorem toDigit_lt (h : toDigit radix c = some n) : n < radix := by
  unfold toDigit at h
  exact of_decide_eq_true (Option.mem_filter_iff.mp h).2

/-- What a number at the front of a text is. -/
theorem readNumber_eq_some_iff :
    readNumber radix maxDigits bound zeroPrefix s = some (number, rest) ↔
      s.takeWhile (isDigit radix) ≠ [] ∧ (s.takeWhile (isDigit radix)).length ≤ maxDigits ∧
      (zeroPrefix = true ∨ s.head? ≠ some '0' ∨ (s.takeWhile (isDigit radix)).length ≤ 1) ∧
      number.val = ofDigits radix (s.takeWhile (isDigit radix)) ∧
      rest = s.dropWhile (isDigit radix) := by
  have hhead (h : s.takeWhile (isDigit radix) ≠ []) :
      (s.takeWhile (isDigit radix)).head? = s.head? := by
    cases s with
    | nil => rfl
    | cons c s =>
      cases hc : isDigit radix c with
      | true => rw [List.takeWhile_cons_of_pos hc]; rfl
      | false => exact absurd (List.takeWhile_cons_of_neg (by simp [hc])) h
  unfold readNumber
  generalize s.takeWhile (isDigit radix) = digits at hhead ⊢
  simp only [List.length_eq_zero_iff]
  constructor
  · intro h
    split at h
    · cases h
    · next hlength =>
      push Not at hlength
      split at h
      · cases h
      · next hzero =>
        rw [hhead hlength.1] at hzero
        split at h
        · obtain ⟨rfl, rfl⟩ := Prod.mk.inj (Option.some.inj h)
          refine ⟨hlength.1, hlength.2, ?_, rfl, rfl⟩
          cases zeroPrefix with
          | true => exact .inl rfl
          | false =>
            simp only [Bool.not_false, true_and, not_and, not_lt] at hzero
            exact .inr (or_iff_not_imp_left.mpr fun h => hzero (not_not.mp h))
        · cases h
  · rintro ⟨hne, hlength, hzero, hvalue, rfl⟩
    rw [if_neg (by simp [hne, hlength]), hhead hne, if_neg ?_, dif_pos (hvalue ▸ number.isLt)]
    · simp [← hvalue]
    · rintro ⟨hstart, hhead, hlt⟩
      rcases hzero with rfl | hzero | hle
      · cases hstart
      · exact hzero hhead
      · omega

end

/-- What follows a separator, which the first of a sequence is without. -/
def afterSeparator {α : Type} (sep : Char) (first : Bool)
    (read : List Char → Option (α × List Char)) (s : List Char) : Option (α × List Char) :=
  if first then read s
  else
    match s with
    | c :: s => if c = sep then read s else none
    | [] => none

/-! ### Addresses in a text -/

def readOctet (first : Bool) : List Char → Option (Fin 256 × List Char) :=
  afterSeparator '.' first (readNumber 10 3 256 false)

/-- An IPv4 address at the front of a text. -/
def readV4 (s : List Char) : Option (V4 × List Char) := do
  let (a, s) ← readOctet true s
  let (b, s) ← readOctet false s
  let (c, s) ← readOctet false s
  let (d, s) ← readOctet false s
  return (⟨a, b, c, d⟩, s)

/-- Up to `n` groups at the front of a text, whether they end with an IPv4 address, and the rest. -/
def readGroups : ℕ → Bool → List Char → List (Fin 65536) × Bool × List Char
  | 0, _, s => ([], false, s)
  | n + 1, first, s =>
    -- There must be at least two groups left for an embedded IPv4 address.
    match if 0 < n then afterSeparator ':' first readV4 s else none with
    | some (addr, s) => (addr.groups, true, s)
    | none =>
      match afterSeparator ':' first (readNumber 16 4 65536 true) s with
      | some (group, s) =>
        let (groups, embedded, s) := readGroups n false s
        (group :: groups, embedded, s)
      | none => ([], false, s)

/-- An IPv6 address at the front of a text. -/
def readV6 (s : List Char) : Option (V6 × List Char) :=
  match readGroups 8 true s with
  | (head, embedded, s) =>
    if head.length = 8 then (V6.of head).map (·, s)
    else if embedded then none
    else
      match s with
      | ':' :: ':' :: s =>
        -- The `::` stands for at least one group.
        match readGroups (7 - head.length) true s with
        | (tail, _, s) =>
          (V6.of (head ++ List.replicate (8 - head.length - tail.length) 0 ++ tail)).map (·, s)
      | _ => none

/-- A text that is an address. -/
def parse (s : List Char) : Option Addr :=
  match (readV4 s).map (fun (addr, s) => (Addr.v4 addr, s)) <|>
      (readV6 s).map fun (addr, s) => (Addr.v6 addr, s) with
  | some (addr, []) => some addr
  | _ => none

end Ip
