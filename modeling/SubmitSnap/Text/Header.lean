import Mathlib

/-!
# Header values and dispositions

The bytes of a text, which of them may stand in a header value, and a reader for the value of a
`Content-Disposition`: a type and its parameters, each a token or a quoted string. In a quoted
string a backslash stands for the byte that follows it, so what is written between two quotes is
read back as it is only if it has neither quotes nor backslashes.

## The argument

Everything is about bytes, as a header is; what a text contributes are the encodings of its
characters, and no byte of a character beyond ASCII is ASCII (`le_of_mem_utf8EncodeChar`). So the
reader, which decides by ASCII bytes only, can be followed character by character.

Between quotes a backslash costs the reader a byte. That it can never be made up for is a matter
of length: a text is read back at most as long as it was written, and one with a backslash
strictly shorter (`length_le_of_readQuoted`).

## Main definitions

* `bytes` — the UTF-8 encoding of a text.
* `Legal` — what may be sent as a header value.
* `Disposition.parse` — the reader.
* `percentDecode` — what an extended parameter stands for.

## Main results

* `Disposition.readQuoted_body`, `Disposition.readQuoted_ne` — which texts survive the quotes.
* `percentDecode_percentEncode` — the round trip.
-/

namespace Header

/-- What can be evaluated of every member of a list. -/
theorem forall_of_all {α : Type} {P : α → Prop} [DecidablePred P] {l : List α}
    (h : l.all (P ·) = true) : ∀ a ∈ l, P a :=
  fun a ha => of_decide_eq_true (List.all_eq_true.mp h a ha)

/-- The UTF-8 encoding of a text. -/
def bytes (s : String) : List UInt8 := s.toList.flatMap String.utf8EncodeChar

section

variable {s t : String} {c : Char} {b : UInt8} {l : List Char}

theorem bytes_ofList : bytes (String.ofList l) = l.flatMap String.utf8EncodeChar := by
  rw [bytes, String.toList_ofList]

@[simp]
theorem bytes_append : bytes (s ++ t) = bytes s ++ bytes t := by
  simp [bytes]

theorem utf8EncodeChar_of_ascii (h : c.toNat < 128) :
    String.utf8EncodeChar c = [UInt8.ofNat c.toNat] := by
  have hle : c.val.toNat ≤ 0x7f := Nat.le_of_lt_succ h
  unfold String.utf8EncodeChar
  exact if_pos hle

/-- The encoding of any other character has no ASCII bytes. -/
theorem le_of_mem_utf8EncodeChar (h : 128 ≤ c.toNat) (hb : b ∈ String.utf8EncodeChar c) :
    128 ≤ b.toNat := by
  have hgt : ¬ c.val.toNat ≤ 0x7f := Nat.not_le_of_gt h
  unfold String.utf8EncodeChar at hb
  rw [if_neg hgt] at hb
  -- A leading byte has its two highest bits set, a continuation byte the highest.
  have hhigh (n : ℕ) {k m : ℕ} (hk : 0 < k) (hm : 128 ≤ m) (hkm : k + m ≤ 256) :
      128 ≤ (UInt8.ofNat (n % k + m)).toNat := by
    have hlt := Nat.mod_lt n hk
    rw [UInt8.toNat_ofNat']
    omega
  split at hb
  · simp only [List.mem_cons, List.not_mem_nil, or_false] at hb
    rcases hb with rfl | rfl <;> exact hhigh _ (by decide) (by decide) (by decide)
  · split at hb
    · simp only [List.mem_cons, List.not_mem_nil, or_false] at hb
      rcases hb with rfl | rfl | rfl <;> exact hhigh _ (by decide) (by decide) (by decide)
    · simp only [List.mem_cons, List.not_mem_nil, or_false] at hb
      rcases hb with rfl | rfl | rfl | rfl <;> exact hhigh _ (by decide) (by decide) (by decide)

theorem toNat_ofNat_of_ascii (h : c.toNat < 128) : (UInt8.ofNat c.toNat).toNat = c.toNat := by
  rw [UInt8.toNat_ofNat', Nat.mod_eq_of_lt (by omega)]

/-- The ASCII bytes of a text are its ASCII characters. -/
theorem mem_bytes_iff (h : c.toNat < 128) : UInt8.ofNat c.toNat ∈ bytes s ↔ c ∈ s.toList := by
  rw [bytes, List.mem_flatMap]
  constructor
  · rintro ⟨c', hc', hb⟩
    rcases Nat.lt_or_ge c'.toNat 128 with hascii | hhigh
    · rw [utf8EncodeChar_of_ascii hascii, List.mem_singleton] at hb
      have heq := congrArg UInt8.toNat hb
      rw [toNat_ofNat_of_ascii h, toNat_ofNat_of_ascii hascii] at heq
      rw [Char.toNat_inj.mp heq]
      exact hc'
    · have hle := le_of_mem_utf8EncodeChar hhigh hb
      rw [toNat_ofNat_of_ascii h] at hle
      omega
  · intro hc
    exact ⟨c, hc, by rw [utf8EncodeChar_of_ascii h, List.mem_singleton]⟩

/-- A byte of a text is one of its ASCII characters, or is not ASCII. -/
theorem cases_of_mem_bytes (hb : b ∈ bytes s) :
    (∃ c ∈ s.toList, c.toNat = b.toNat) ∨ 128 ≤ b.toNat := by
  obtain ⟨c, hc, hb⟩ := List.mem_flatMap.mp hb
  rcases Nat.lt_or_ge c.toNat 128 with hascii | hhigh
  · rw [utf8EncodeChar_of_ascii hascii, List.mem_singleton] at hb
    exact .inl ⟨c, hc, by rw [hb, toNat_ofNat_of_ascii hascii]⟩
  · exact .inr (le_of_mem_utf8EncodeChar hhigh hb)

end

/-! ### Legal values -/

/-- A byte that may stand in a header value: a tab, or anything but a control character. -/
def isLegal (b : UInt8) : Bool := b == 9 || (32 ≤ b && b != 127)

theorem isLegal_iff {b : UInt8} :
    isLegal b = true ↔ b.toNat = 9 ∨ 32 ≤ b.toNat ∧ b.toNat ≠ 127 := by
  simp [isLegal, UInt8.le_iff_toNat_le, ← UInt8.toNat_inj]

/-- What may be sent as a header value. -/
def Legal (value : List UInt8) : Prop := ∀ b ∈ value, isLegal b = true

instance (value : List UInt8) : Decidable (Legal value) :=
  inferInstanceAs (Decidable (∀ b ∈ value, isLegal b = true))

def isDigit (b : UInt8) : Bool := 48 ≤ b && b ≤ 57

def isAlpha (b : UInt8) : Bool := (65 ≤ b && b ≤ 90) || (97 ≤ b && b ≤ 122)

/-- A byte of a token: a digit, a letter or one of ``!#$%&'*+-.^_`|~``. -/
def isToken (b : UInt8) : Bool :=
  isDigit b || isAlpha b || b ∈ [33, 35, 36, 37, 38, 39, 42, 43, 45, 46, 94, 95, 96, 124, 126]

/-- White space that may stand around a semicolon. -/
def isBlank (b : UInt8) : Bool := b == 32 || b == 9

/-! ### The reader -/

/-- The type of a disposition, and its parameters in order. -/
structure Disposition where
  kind : List UInt8
  params : List (List UInt8 × List UInt8)
  deriving DecidableEq

namespace Disposition

/-- The bytes up to the closing quote, and what follows it. -/
def readQuoted : List UInt8 → Option (List UInt8 × List UInt8)
  | [] => none
  | b :: input =>
    if b = 34 then some ([], input)
    else if b = 92 then
      match input with
      | [] => none
      | escaped :: input =>
        if isLegal escaped then
          (readQuoted input).map fun (value, rest) => (escaped :: value, rest)
        else none
    else if isLegal b then (readQuoted input).map fun (value, rest) => (b :: value, rest)
    else none

/-- A token, and what follows it. -/
def readToken (input : List UInt8) : Option (List UInt8 × List UInt8) :=
  if input.takeWhile isToken = [] then none
  else some (input.takeWhile isToken, input.dropWhile isToken)

/-- A quoted string or a token. -/
def readValue : List UInt8 → Option (List UInt8 × List UInt8)
  | [] => none
  | b :: input => if b = 34 then readQuoted input else readToken (b :: input)

/-- A name, an equals sign and a value. -/
def readParam (input : List UInt8) : Option ((List UInt8 × List UInt8) × List UInt8) :=
  match readToken input with
  | some (name, 61 :: input) => (readValue input).map fun (value, rest) => ((name, value), rest)
  | _ => none

/-- Parameters, each behind a semicolon; every one takes a unit of fuel. -/
def readParams : ℕ → List UInt8 → Option (List (List UInt8 × List UInt8))
  | fuel, input =>
    match fuel, input.dropWhile isBlank with
    | _, [] => some []
    | fuel + 1, 59 :: input => do
      let (param, rest) ← readParam (input.dropWhile isBlank)
      let params ← readParams fuel rest
      return param :: params
    | _, _ => none

/-- The disposition that a header value stands for. -/
def parse (value : List UInt8) : Option Disposition := do
  let (kind, rest) ← readToken value
  let params ← readParams value.length rest
  return ⟨kind, params⟩

variable {name kind body input value rest : List UInt8} {b : UInt8} {fuel : ℕ}

/-- A token that something else follows. -/
structure IsName (name : List UInt8) : Prop where
  ne_nil : name ≠ []
  token : ∀ b ∈ name, isToken b = true

theorem readToken_append (h : IsName name) (hrest : ∀ b ∈ rest.head?, isToken b = false) :
    readToken (name ++ rest) = some (name, rest) := by
  have htake : (name ++ rest).takeWhile isToken = name := by
    rw [List.takeWhile_append_of_pos h.token]
    cases rest with
    | nil => exact List.append_nil _
    | cons b rest => rw [List.takeWhile_cons_of_neg (by simp [hrest b rfl]), List.append_nil]
  have hdrop : (name ++ rest).dropWhile isToken = rest := by
    rw [List.dropWhile_append_of_pos h.token]
    cases rest with
    | nil => rfl
    | cons b rest => exact List.dropWhile_cons_of_neg (by simp [hrest b rfl])
  rw [readToken, htake, hdrop, if_neg h.ne_nil]

theorem not_isBlank_of_isToken (h : isToken b = true) : isBlank b = false := by
  have hblank : ∀ b, isBlank b = true → isToken b = false := by
    intro b hb
    rcases Bool.or_eq_true_iff.mp hb with hb | hb <;> rw [beq_iff_eq.mp hb] <;> rfl
  cases hb : isBlank b with
  | false => rfl
  | true => rw [hblank b hb] at h; cases h

theorem readParams_nil (fuel : ℕ) : readParams fuel [] = some [] := by
  cases fuel <;> rfl

/-- A parameter is its name and whatever is read after the equals sign. -/
theorem readParams_cons (h : IsName name) :
    readParams (fuel + 1) (59 :: 32 :: (name ++ 61 :: input)) =
      (readValue input).bind fun (value, rest) =>
        (readParams fuel rest).map fun params => (name, value) :: params := by
  have hparam : readParam (name ++ 61 :: input) =
      (readValue input).map fun (value, rest) => ((name, value), rest) := by
    rw [readParam, readToken_append h fun b hb => by cases hb; rfl]
    rfl
  have hname : (name ++ 61 :: input).dropWhile isBlank = name ++ 61 :: input := by
    obtain ⟨b, name, rfl⟩ := List.exists_cons_of_ne_nil h.ne_nil
    have hblank := not_isBlank_of_isToken (h.token b List.mem_cons_self)
    exact List.dropWhile_cons_of_neg (by simp [hblank])
  have hstep : readParams (fuel + 1) (59 :: 32 :: (name ++ 61 :: input)) =
      (readParam ((name ++ 61 :: input).dropWhile isBlank)).bind fun (param, rest) =>
        (readParams fuel rest).bind fun params => some (param :: params) := rfl
  rw [hstep, hname, hparam]
  cases readValue input with
  | none => rfl
  | some read => exact (Option.map_eq_bind ..).symm

theorem parse_append (h : IsName kind) :
    parse (kind ++ 59 :: input) =
      (readParams (kind ++ 59 :: input).length (59 :: input)).map fun params => ⟨kind, params⟩ := by
  rw [parse, readToken_append h fun b hb => by cases hb; rfl]
  exact (Option.map_eq_bind ..).symm

/-- What is read of a disposition depends on what is read behind the first quote. -/
theorem parse_quoted (hkind : IsName kind) (hname : IsName name) :
    parse (kind ++ 59 :: 32 :: (name ++ 61 :: 34 :: input)) =
      (readQuoted input).bind fun (value, rest) =>
        (readParams (kind.length + name.length + input.length + 3) rest).map fun params =>
          ⟨kind, (name, value) :: params⟩ := by
  have hlength : (kind ++ 59 :: 32 :: (name ++ 61 :: 34 :: input)).length =
      kind.length + name.length + input.length + 3 + 1 := by
    simp only [List.length_append, List.length_cons]
    omega
  have hvalue : readValue (34 :: input) = readQuoted input := rfl
  rw [parse_append hkind, hlength, readParams_cons hname, hvalue]
  cases readQuoted input with
  | none => rfl
  | some read => exact Option.map_map ..

/-! ### Quoted strings -/

theorem readQuoted_quote : readQuoted (34 :: input) = some ([], input) := by
  rw [readQuoted.eq_def]
  rfl

theorem readQuoted_escape : readQuoted (92 :: b :: input) =
    if isLegal b then (readQuoted input).map fun (value, rest) => (b :: value, rest) else none := by
  rw [readQuoted.eq_def]
  rfl

theorem readQuoted_cons (hquote : b ≠ 34) (hslash : b ≠ 92) : readQuoted (b :: input) =
    if isLegal b then (readQuoted input).map fun (value, rest) => (b :: value, rest) else none := by
  rw [readQuoted.eq_def]
  simp only [hquote, hslash, if_false]

/-- **A text without quotes and backslashes is read back as it is.** -/
theorem readQuoted_body (h : ∀ b ∈ body, isLegal b = true ∧ b ≠ 34 ∧ b ≠ 92) :
    readQuoted (body ++ 34 :: rest) = some (body, rest) := by
  induction body with
  | nil => exact readQuoted_quote
  | cons b body ih =>
    obtain ⟨⟨hlegal, hquote, hslash⟩, hbody⟩ := List.forall_mem_cons.mp h
    rw [List.cons_append, readQuoted_cons hquote hslash, if_pos hlegal, ih hbody]
    rfl

/-- No text is read back longer than it was written. -/
theorem length_le_of_readQuoted (h : readQuoted input = some (value, rest)) :
    value.length + rest.length + 1 ≤ input.length := by
  induction input using readQuoted.induct generalizing value with
  | case1 => cases h
  | case2 input =>
    rw [readQuoted_quote] at h
    cases h
    simp
  | case3 => cases h
  | case4 b input hlegal _ ih =>
    rw [readQuoted_escape, if_pos hlegal] at h
    obtain ⟨⟨v, rest⟩, hread, heq⟩ := Option.map_eq_some_iff.mp h
    cases heq
    have := ih hread
    simp only [List.length_cons]
    omega
  | case5 b input hlegal =>
    rw [readQuoted_escape, if_neg hlegal] at h
    cases h
  | case6 b input hquote hslash hlegal ih =>
    rw [readQuoted_cons hquote hslash, if_pos hlegal] at h
    obtain ⟨⟨v, rest⟩, hread, heq⟩ := Option.map_eq_some_iff.mp h
    cases heq
    have := ih hread
    simp only [List.length_cons]
    omega
  | case7 b input hquote hslash hlegal =>
    rw [readQuoted_cons hquote hslash, if_neg hlegal] at h
    cases h

/-- **A text with a backslash is not read back.** -/
theorem readQuoted_ne (hquote : 34 ∉ body) (hslash : 92 ∈ body) :
    readQuoted (body ++ [34]) ≠ some (body, rest) := by
  intro h
  induction body with
  | nil => cases hslash
  | cons b body ih =>
    obtain ⟨hb, hbody⟩ := not_or.mp (mt List.mem_cons.mpr hquote)
    by_cases heq : b = 92
    · subst heq
      cases body with
      | nil => cases h
      | cons b body =>
        -- The byte behind the backslash comes first, and there is one byte too few.
        rw [List.cons_append, List.cons_append, readQuoted_escape] at h
        split at h
        · obtain ⟨⟨v, rest⟩, hread, heq⟩ := Option.map_eq_some_iff.mp h
          have hle := length_le_of_readQuoted hread
          have hlength := congrArg (List.length ∘ Prod.fst) heq
          simp only [Function.comp_apply, List.length_cons, List.length_append,
            List.length_nil] at hle hlength
          omega
        · cases h
    · have hmem : 92 ∈ body := (List.mem_cons.mp hslash).resolve_left (Ne.symm heq)
      rw [List.cons_append, readQuoted_cons (Ne.symm hb) heq] at h
      split at h
      · obtain ⟨⟨v, rest'⟩, hread, heq⟩ := Option.map_eq_some_iff.mp h
        cases heq
        exact ih hbody hmem hread
      · cases h

end Disposition

/-! ### Percent encoding -/

/-- The value of a hexadecimal digit. -/
def hexValue (b : UInt8) : Option UInt8 :=
  if isDigit b then some (b - 48)
  else if 65 ≤ b && b ≤ 70 then some (b - 55)
  else if 97 ≤ b && b ≤ 102 then some (b - 87)
  else none

/-- What an extended parameter stands for: a percent sign and two digits are one byte. -/
def percentDecode : List UInt8 → List UInt8
  | 37 :: high :: low :: rest =>
    match hexValue high, hexValue low with
    | some h, some l => (16 * h + l) :: percentDecode rest
    | _, _ => 37 :: percentDecode (high :: low :: rest)
  | b :: rest => b :: percentDecode rest
  | [] => []

/-- The digits of a byte. -/
def hexDigit (n : UInt8) : UInt8 := if n < 10 then 48 + n else 55 + n

def percentEncode (plain : UInt8 → Bool) (b : UInt8) : List UInt8 :=
  if plain b then [b] else [37, hexDigit (b / 16), hexDigit (b % 16)]

theorem hexValue_hexDigit {n : UInt8} (h : n.toNat < 16) : hexValue (hexDigit n) = some n := by
  have hall : ∀ n < 16, hexValue (hexDigit (UInt8.ofNat n)) = some (UInt8.ofNat n) := by decide
  rw [← UInt8.ofNat_toNat (x := n)]
  exact hall n.toNat h

theorem percentDecode_escape (b : UInt8) (rest : List UInt8) :
    percentDecode (37 :: hexDigit (b / 16) :: hexDigit (b % 16) :: rest) =
      b :: percentDecode rest := by
  have hhigh : (b / 16).toNat = b.toNat / 16 := UInt8.toNat_div b 16
  have hlow : (b % 16).toNat = b.toNat % 16 := UInt8.toNat_mod b 16
  have hlt := b.toNat_lt
  have hb : 16 * (b / 16) + b % 16 = b := by
    rw [← UInt8.toNat_inj, UInt8.toNat_add, UInt8.toNat_mul, hhigh, hlow]
    simp only [UInt8.reduceToNat]
    omega
  rw [percentDecode, hexValue_hexDigit (by omega), hexValue_hexDigit (by omega)]
  simp only [hb]

theorem percentDecode_cons {b : UInt8} (h : b ≠ 37) (rest : List UInt8) :
    percentDecode (b :: rest) = b :: percentDecode rest := by
  rw [percentDecode]
  intro high low tail heq
  exact absurd heq h

theorem percentDecode_percentEncode {plain : UInt8 → Bool} (hplain : plain 37 = false)
    (value : List UInt8) : percentDecode (value.flatMap (percentEncode plain)) = value := by
  induction value with
  | nil => rfl
  | cons b value ih =>
    rw [List.flatMap_cons, percentEncode]
    split
    · next hb =>
      have hne : b ≠ 37 := fun heq => by rw [heq, hplain] at hb; cases hb
      rw [List.singleton_append, percentDecode_cons hne, ih]
    · exact (percentDecode_escape b _).trans (congrArg _ ih)

end Header
