import Mathlib

/-!
# `LIKE` patterns

A pattern is read into tokens: `%` stands for any text, `_` for any character, and a backslash takes
away the meaning of what follows it. A pattern that ends in a backslash is an error. A text whose
metacharacters are escaped reads as itself, so wrapping it in `%` asks for a substring.

## The argument

Escaping is right because reading a pattern is: an escaped character reads as the literal token of
it and leaves the rest of the pattern as it is, so by induction an escaped text reads as its own
characters (`tokens_escape`). What is matched is decided by tokens only. The two `%` then let the
literal text begin at any tail of the text and end anywhere.

## Main definitions

* `tokens`, `like` — reading a pattern, and matching it.
* `escape` — a pattern for a literal text.

## Main results

* `like_contains_iff` — what the escaped and wrapped pattern matches.
-/

namespace Like

inductive Token where
  /-- `%`. -/
  | any
  /-- `_`. -/
  | one
  | lit (c : Char)
  deriving DecidableEq, Repr

/-- Reads a pattern; `none` if it ends in an escape character. -/
def tokens : List Char → Option (List Token)
  | [] => some []
  | '\\' :: c :: pattern => (tokens pattern).map (.lit c :: ·)
  | ['\\'] => none
  | '%' :: pattern => (tokens pattern).map (.any :: ·)
  | '_' :: pattern => (tokens pattern).map (.one :: ·)
  | c :: pattern => (tokens pattern).map (.lit c :: ·)

/-- Whether the whole text fits the tokens. -/
def fits : List Token → List Char → Bool
  | [], text => text.isEmpty
  | .any :: ts, text => text.tails.any (fits ts)
  | .one :: ts, text => text.tail?.any (fits ts)
  | .lit c :: ts, text => text.head? == some c && fits ts text.tail

/-- `text LIKE pattern`; `none` if the pattern is an error. -/
def like (text pattern : List Char) : Option Bool := (tokens pattern).map (fits · text)

/-- The pattern for a single character that stands for itself. -/
def escapeChar (c : Char) : List Char :=
  if c = '\\' ∨ c = '%' ∨ c = '_' then ['\\', c] else [c]

/-- The pattern for a literal text. -/
def escape (term : List Char) : List Char := term.flatMap escapeChar

variable {c : Char} {pattern term text : List Char} {ts : List Token}

theorem tokens_escapeChar :
    tokens (escapeChar c ++ pattern) = (tokens pattern).map (.lit c :: ·) := by
  unfold escapeChar
  split
  · rfl
  · next hplain =>
    rw [not_or, not_or] at hplain
    obtain ⟨hbackslash, hpercent, hunderscore⟩ := hplain
    rw [List.singleton_append]
    conv_lhs => unfold tokens
    split <;> simp_all

/-- An escaped text reads as itself, whatever follows. -/
theorem tokens_escape :
    tokens (escape term ++ pattern) = (tokens pattern).map (term.map .lit ++ ·) := by
  induction term with
  | nil => simp [escape]
  | cons c term ih =>
    rw [escape, List.flatMap_cons, List.append_assoc, tokens_escapeChar]
    change (tokens (escape term ++ pattern)).map _ = _
    rw [ih, Option.map_map]
    rfl

/-- A literal text is matched by itself, at the beginning. -/
theorem fits_lits : fits (term.map .lit ++ ts) text = true ↔
    ∃ rest, text = term ++ rest ∧ fits ts rest = true := by
  induction term generalizing text with
  | nil => simp
  | cons c term ih =>
    rw [List.map_cons, List.cons_append, fits, Bool.and_eq_true, beq_iff_eq, ih]
    constructor
    · rintro ⟨hhead, rest, htail, hfits⟩
      refine ⟨rest, ?_, hfits⟩
      rw [List.cons_append, ← htail]
      exact (List.cons_head?_tail hhead).symm
    · rintro ⟨rest, rfl, hfits⟩
      exact ⟨rfl, rest, rfl, hfits⟩

theorem fits_any : fits (.any :: ts) text = true ↔ ∃ rest, rest <:+ text ∧ fits ts rest = true := by
  simp [fits]

/-- **A substring search**: the escaped text between two `%` matches what contains it. -/
theorem like_contains_iff :
    like text (('%' :: escape term) ++ ['%']) = some true ↔ term <:+: text := by
  have hpattern : tokens (('%' :: escape term) ++ ['%']) =
      some (.any :: (term.map .lit ++ [.any])) := by
    have hlast : tokens ['%'] = some [.any] := rfl
    rw [List.cons_append, tokens, tokens_escape, hlast]
    rfl
  rw [like, hpattern, Option.map_some, Option.some_inj, fits_any]
  constructor
  · rintro ⟨rest, ⟨before, rfl⟩, hfits⟩
    obtain ⟨after, rfl, -⟩ := fits_lits.mp hfits
    exact ⟨before, after, List.append_assoc _ _ _⟩
  · rintro ⟨before, after, rfl⟩
    refine ⟨term ++ after, ⟨before, (List.append_assoc _ _ _).symm⟩, fits_lits.mpr ⟨after, rfl, ?_⟩⟩
    exact fits_any.mpr ⟨[], List.nil_suffix, rfl⟩

end Like
