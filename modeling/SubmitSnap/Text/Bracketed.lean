import SubmitSnap.Text.Ip

/-!
# IPv6 addresses between the brackets of a web address

The parser of the URL standard walks through the text once and counts the pieces that are still
missing; where zeros were left out it makes a note, and puts them in at the end. The strict parser
tries one reading after the other and goes back. They take the same texts for the same addresses.

## The argument

The walk and the strict parser meet groups in the same order but count differently: the walk
counts the pieces that are missing and the strict parser collects those it has. `resume` says what
the walk comes to from a state of the strict parser, and `after_eq` that both go on in the same
way behind a piece. The delicate places are those at which the strict parser goes back: a number
followed by a dot may be the beginning of an IPv4 address, and the walk, which does not go back,
has to decide by the dot (`embedded_eq`). Numbers are compared by what they are texts of, so that
neither parser has to be run inside of the other.

## Main definitions

* `octets` — the IPv4 address at the end.
* `pieces`, `parseV6` — the walk, and the address it makes.

## Main results

* `parseV6_eq_some_iff` — the two parsers agree.
-/

namespace Url

open Ip

/-! ### The parser of the URL standard -/

/-- A decimal number up to 255 at the front of a text, of which some digits may have been read. A
zero is followed by no further digit. -/
def readDecimal : Option ℕ → List Char → Option (ℕ × List Char)
  | value, [] => value.map (·, [])
  | value, c :: s =>
    match toDigit 10 c, value with
    | none, value => value.map (·, c :: s)
    | some n, none => readDecimal (some n) s
    | some n, some value =>
      if value = 0 ∨ 255 < value * 10 + n then none else readDecimal (some (value * 10 + n)) s

/-- The numbers of an IPv4 address that are still missing; nothing follows the last one. -/
def octets : ℕ → List Char → Option (List ℕ)
  | 0, s => if s = [] then some [] else none
  | n + 1, s =>
    (afterSeparator '.' (n + 1 = 4) (readDecimal none) s).bind fun (value, s) =>
      (octets n s).map (value :: ·)

/-- A piece, or a note that zeros were left out. -/
abbrev Piece : Type := Option (Fin 65536)

/-- The two pieces that four numbers make. -/
def embed : List ℕ → Option (List Piece)
  | [a, b, c, d] => some [Fin.ofNat 65536 (a * 256 + b), Fin.ofNat 65536 (c * 256 + d)]
  | _ => none

/-- The pieces that are still missing. -/
def pieces : ℕ → Bool → List Char → Option (List Piece)
  | _, _, [] => some []
  | 0, _, _ :: _ => none
  | n + 1, compressed, c :: s =>
    if c = ':' then if compressed then none else (pieces n true s).map (none :: ·)
    else
      let digits := ((c :: s).take 4).takeWhile (isDigit 16)
      let value := Fin.ofNat 65536 (ofDigits 16 digits)
      match (c :: s).drop digits.length with
      | '.' :: _ =>
        -- An IPv4 address takes the place of two pieces.
        if digits = [] ∨ n = 0 then none else (octets 4 (c :: s)).bind embed
      | ':' :: s => if s = [] then none else (pieces n compressed s).map (some value :: ·)
      | [] => some [some value]
      | _ => none

/-- The address, with the zeros that were left out. -/
def expand (ps : List Piece) : Option V6 :=
  V6.of (ps.flatMap fun piece => piece.elim (List.replicate (9 - ps.length) 0) ([·]))

def parseV6 (s : List Char) : Option V6 :=
  match s with
  | ':' :: ':' :: s => ((pieces 7 true s).map (none :: ·)).bind expand
  | ':' :: _ => none
  | s => (pieces 8 false s).bind expand

variable {s t rest : List Char} {c : Char} {n value : ℕ} {compressed embedded : Bool} {addr : V4}

/-! ### Decimal numbers -/

/-- The number that a number becomes when digits are put behind it. -/
def extend (value : ℕ) (digits : List Char) : ℕ :=
  digits.foldl (fun n c => n * 10 + (toDigit 10 c).getD 0) value

theorem le_extend (value : ℕ) (digits : List Char) :
    value * 10 ^ digits.length ≤ extend value digits := by
  induction digits generalizing value with
  | nil => simp [extend]
  | cons c digits ih =>
    have hle := ih (value * 10 + (toDigit 10 c).getD 0)
    calc value * 10 ^ (c :: digits).length
        = value * 10 * 10 ^ digits.length := by rw [List.length_cons, pow_succ]; ring
      _ ≤ (value * 10 + (toDigit 10 c).getD 0) * 10 ^ digits.length :=
        Nat.mul_le_mul_right _ (Nat.le_add_right _ _)
      _ ≤ extend value (c :: digits) := hle

theorem readDecimal_some (h : value ≤ 255) :
    readDecimal (some value) s =
      if s.takeWhile (isDigit 10) ≠ [] ∧ value = 0 ∨ 255 < extend value (s.takeWhile (isDigit 10))
      then none
      else some (extend value (s.takeWhile (isDigit 10)), s.dropWhile (isDigit 10)) := by
  induction s generalizing value with
  | nil =>
    have hle : ¬ 255 < value := by omega
    simp [readDecimal, extend, hle]
  | cons c s ih =>
    cases hc : toDigit 10 c with
    | none =>
      have hdigit : isDigit 10 c = false := by simp [isDigit, hc]
      have hle : ¬ 255 < value := by omega
      simp [readDecimal, hc, hdigit, extend, hle]
    | some n =>
      have hdigit : isDigit 10 c = true := by simp [isDigit, hc]
      have hextend : extend value (c :: s.takeWhile (isDigit 10)) =
          extend (value * 10 + n) (s.takeWhile (isDigit 10)) := by
        simp [extend, hc]
      rw [List.takeWhile_cons_of_pos hdigit, List.dropWhile_cons_of_pos hdigit, hextend]
      simp only [readDecimal, hc]
      by_cases hzero : value = 0
      · simp [hzero]
      by_cases hlarge : 255 < value * 10 + n
      · have hle := le_extend (value * 10 + n) (s.takeWhile (isDigit 10))
        have hpos := Nat.le_mul_of_pos_right (value * 10 + n)
          (Nat.pow_pos (n := (s.takeWhile (isDigit 10)).length) (show 0 < 10 by decide))
        rw [if_pos (.inr hlarge), if_pos (.inr (by omega))]
      · rw [if_neg (by omega), ih (by omega)]
        have hne : value * 10 + n ≠ 0 := by omega
        simp only [hne, hzero, and_false, false_or]

theorem eq_zero_iff (h : toDigit 10 c = some n) : n = 0 ↔ c = '0' := by
  constructor
  · rintro rfl
    unfold toDigit at h
    have hvalue := (Option.mem_filter_iff.mp h).1
    simp only [Option.mem_def] at hvalue
    split at hvalue
    · have hsub := Option.some.inj hvalue
      apply Char.toNat_inj.mp
      omega
    · split at hvalue
      · cases hvalue
      · split at hvalue <;> cases hvalue
  · rintro rfl
    have hzero : toDigit 10 '0' = some 0 := by decide
    exact (Option.some.inj (hzero.symm.trans h)).symm

/-- Both parsers read the same decimal numbers. -/
theorem readDecimal_none_iff :
    readDecimal none s = some (value, rest) ↔
      ∃ h, readNumber 10 3 256 false s = some (⟨value, h⟩, rest) := by
  simp only [readNumber_eq_some_iff]
  cases s with
  | nil => simp [readDecimal]
  | cons c s =>
    cases hc : toDigit 10 c with
    | none =>
      have hdigit : isDigit 10 c = false := by simp [isDigit, hc]
      simp [readDecimal, hc, hdigit]
    | some n =>
      have hdigit : isDigit 10 c = true := by simp [isDigit, hc]
      have hn : n < 10 := toDigit_lt hc
      have hzero := eq_zero_iff hc
      have hof : ofDigits 10 (c :: s.takeWhile (isDigit 10)) =
          extend n (s.takeWhile (isDigit 10)) := by
        simp [ofDigits, extend, hc]
      simp only [readDecimal, hc]
      rw [readDecimal_some (by omega), List.takeWhile_cons_of_pos hdigit,
        List.dropWhile_cons_of_pos hdigit, hof]
      generalize hdigits : s.takeWhile (isDigit 10) = digits
      have hle := le_extend n digits
      constructor
      · intro h
        split at h
        · cases h
        · next hread =>
          obtain ⟨rfl, rfl⟩ := Prod.mk.inj (Option.some.inj h)
          push Not at hread
          refine ⟨by omega, by simp, ?_, ?_, rfl, rfl⟩
          · -- Four digits, the first of which is not zero, are a number of at least a thousand.
            by_contra hlong
            rw [List.length_cons] at hlong
            have hpow : 10 ^ 3 ≤ 10 ^ digits.length :=
              Nat.pow_le_pow_right (by decide) (by omega)
            have hne : digits ≠ [] := by
              rintro rfl
              simp at hlong
            have hpos : 1 ≤ n := Nat.one_le_iff_ne_zero.mpr (hread.1 hne)
            have hmul := Nat.mul_le_mul hpos hpow
            omega
          · by_cases hd : digits = []
            · exact .inr (.inr (by simp [hd]))
            · refine .inr (.inl fun hhead => hread.1 hd ?_)
              exact hzero.mpr (Option.some.inj hhead)
      · rintro ⟨hvalue, -, -, hstart, hnumber, rfl⟩
        rw [if_neg, hnumber]
        rintro (⟨hd, hn⟩ | hlarge)
        · rcases hstart with hstart | hhead | hlength
          · cases hstart
          · exact hhead (congrArg some (hzero.mp hn))
          · rw [List.length_cons] at hlength
            exact hd (List.length_eq_zero_iff.mp (by omega))
        · omega

/-! ### The address at the end -/

theorem readDecimal_after_iff {first : Bool} :
    afterSeparator '.' first (readDecimal none) s = some (value, rest) ↔
      ∃ h, readOctet first s = some (⟨value, h⟩, rest) := by
  unfold readOctet afterSeparator
  cases first with
  | true => exact readDecimal_none_iff
  | false =>
    cases s with
    | nil => simp
    | cons c s =>
      by_cases hc : c = '.'
      · simpa [hc] using readDecimal_none_iff
      · simp [hc]

theorem octets_succ_iff {l : List ℕ} :
    octets (n + 1) s = some l ↔ ∃ (octet : Fin 256) (r : List Char) (tail : List ℕ),
      readOctet (n + 1 = 4) s = some (octet, r) ∧ octets n r = some tail ∧
        l = octet.val :: tail := by
  rw [octets, Option.bind_eq_some_iff]
  constructor
  · rintro ⟨⟨value, r⟩, hdecimal, hmap⟩
    obtain ⟨hlt, hread⟩ := readDecimal_after_iff.mp hdecimal
    obtain ⟨tail, htail, hl⟩ := Option.map_eq_some_iff.mp hmap
    exact ⟨⟨value, hlt⟩, r, tail, hread, htail, hl.symm⟩
  · rintro ⟨octet, r, tail, hread, htail, rfl⟩
    exact ⟨(octet.val, r), readDecimal_after_iff.mpr ⟨octet.isLt, hread⟩, by simp [htail]⟩

/-- Both parsers read the same IPv4 addresses at the end of a text. -/
theorem octets_iff {l : List ℕ} :
    octets 4 s = some l ↔
      ∃ addr, readV4 s = some (addr, []) ∧
        l = [addr.a.val, addr.b.val, addr.c.val, addr.d.val] := by
  have hzero (r : List Char) (l : List ℕ) : octets 0 r = some l ↔ r = [] ∧ l = [] := by
    rw [octets]
    split
    · next hr => simp [hr, eq_comm]
    · next hr => simp [hr]
  constructor
  · intro h
    obtain ⟨a, r₁, l₁, ha, h₁, rfl⟩ := octets_succ_iff.mp h
    obtain ⟨b, r₂, l₂, hb, h₂, rfl⟩ := octets_succ_iff.mp h₁
    obtain ⟨c, r₃, l₃, hc, h₃, rfl⟩ := octets_succ_iff.mp h₂
    obtain ⟨d, r₄, l₄, hd, h₄, rfl⟩ := octets_succ_iff.mp h₃
    obtain ⟨rfl, rfl⟩ := (hzero r₄ l₄).mp h₄
    refine ⟨⟨a, b, c, d⟩, ?_, rfl⟩
    simp only [Nat.reduceAdd, Nat.reduceEqDiff, decide_true, decide_false] at ha hb hc hd
    simp [readV4, ha, hb, hc, hd]
  · rintro ⟨addr, hread, rfl⟩
    unfold readV4 at hread
    obtain ⟨⟨a, r₁⟩, ha, hread⟩ := Option.bind_eq_some_iff.mp hread
    obtain ⟨⟨b, r₂⟩, hb, hread⟩ := Option.bind_eq_some_iff.mp hread
    obtain ⟨⟨c, r₃⟩, hc, hread⟩ := Option.bind_eq_some_iff.mp hread
    obtain ⟨⟨d, r₄⟩, hd, hread⟩ := Option.bind_eq_some_iff.mp hread
    obtain ⟨rfl, rfl⟩ := Prod.mk.inj (Option.some.inj hread)
    refine octets_succ_iff.mpr ⟨a, r₁, _, ha, ?_, rfl⟩
    refine octets_succ_iff.mpr ⟨b, r₂, _, hb, ?_, rfl⟩
    refine octets_succ_iff.mpr ⟨c, r₃, _, hc, ?_, rfl⟩
    exact octets_succ_iff.mpr ⟨d, [], [], hd, rfl, rfl⟩

theorem octets_eq_none (h : ∀ addr, readV4 s ≠ some (addr, [])) : octets 4 s = none := by
  by_contra hne
  obtain ⟨l, hl⟩ := Option.ne_none_iff_exists'.mp hne
  obtain ⟨addr, haddr, -⟩ := octets_iff.mp hl
  exact h addr haddr

/-! ### Pieces -/

/-- What the walk comes to when the strict parser has read these groups and has `s` left. -/
def resume (n : ℕ) (compressed : Bool) :
    List (Fin 65536) × Bool × List Char → Option (List Piece)
  | (groups, embedded, s) =>
    if s = [] then some (groups.map some)
    else if embedded = false ∧ compressed = false ∧ groups.length < n ∧ s.take 2 = [':', ':'] then
      (pieces (n - groups.length - 1) true (s.drop 2)).map (groups.map some ++ none :: ·)
    else none

/-- What the walk comes to behind a piece. -/
def after (n : ℕ) (compressed : Bool) (s : List Char) : Option (List Piece) :=
  if s = [] then some []
  else if s.head? = some ':' ∧ s.tail ≠ [] then pieces n compressed s.tail
  else none

theorem resume_cons {group : Fin 65536} {groups : List (Fin 65536)} :
    resume (n + 1) compressed (group :: groups, embedded, s) =
      (resume n compressed (groups, embedded, s)).map (some group :: ·) := by
  unfold resume
  have hlength : n + 1 - (group :: groups).length - 1 = n - groups.length - 1 := by simp
  have hlt : (group :: groups).length < n + 1 ↔ groups.length < n := by simp
  simp only [hlength, hlt]
  split
  · rfl
  · split
    · rw [Option.map_map]
      rfl
    · rfl

/-! ### Numbers of the walk -/

theorem drop_takeWhile {p : Char → Bool} : s.drop (s.takeWhile p).length = s.dropWhile p := by
  have hsplit : s.takeWhile p ++ s.dropWhile p = s := List.takeWhile_append_dropWhile
  calc s.drop (s.takeWhile p).length
      = (s.takeWhile p ++ s.dropWhile p).drop (s.takeWhile p).length := by rw [hsplit]
    _ = s.dropWhile p := List.drop_left

theorem ofDigits_lt {radix : ℕ} {digits : List Char} (h : ∀ c ∈ digits, isDigit radix c = true) :
    ofDigits radix digits < radix ^ digits.length := by
  have hgo (value : ℕ) : digits.foldl (fun n c => n * radix + (toDigit radix c).getD 0) value <
      (value + 1) * radix ^ digits.length := by
    induction digits generalizing value with
    | nil => simp
    | cons c digits ih =>
      obtain ⟨digit, hdigit⟩ := Option.isSome_iff_exists.mp (h c (List.mem_cons_self ..))
      have hlt : digit < radix := toDigit_lt hdigit
      rw [List.foldl_cons, hdigit]
      calc _ < (value * radix + digit + 1) * radix ^ digits.length :=
            ih (fun c hc => h c (List.mem_cons_of_mem _ hc)) _
        _ ≤ ((value + 1) * radix) * radix ^ digits.length := by
            refine Nat.mul_le_mul_right _ ?_
            rw [Nat.add_mul]
            omega
        _ = (value + 1) * radix ^ (c :: digits).length := by
            rw [List.length_cons, pow_succ]
            ring
  simpa [ofDigits] using hgo 0

theorem take_digits_of_some {group : Fin 65536}
    (h : readNumber 16 4 65536 true s = some (group, rest)) :
    (s.take 4).takeWhile (isDigit 16) ≠ [] ∧
      s.drop ((s.take 4).takeWhile (isDigit 16)).length = rest ∧
      Fin.ofNat 65536 (ofDigits 16 ((s.take 4).takeWhile (isDigit 16))) = group := by
  obtain ⟨hne, hlength, -, hvalue, rfl⟩ := readNumber_eq_some_iff.mp h
  rw [← List.take_takeWhile, List.take_of_length_le hlength, drop_takeWhile, ← hvalue]
  exact ⟨hne, rfl, Fin.ofNat_val_eq_self group⟩

/-- Where the strict parser does not take a number, there are no digits, or more than four. -/
theorem take_digits_of_none (h : readNumber 16 4 65536 true s = none) :
    (s.take 4).takeWhile (isDigit 16) = [] ∨
      ∃ c r, s.drop ((s.take 4).takeWhile (isDigit 16)).length = c :: r ∧ isDigit 16 c = true := by
  have hsplit : s.takeWhile (isDigit 16) ++ s.dropWhile (isDigit 16) = s :=
    List.takeWhile_append_dropWhile
  have hdigits : ∀ c ∈ s.takeWhile (isDigit 16), isDigit 16 c = true :=
    fun c hc => List.mem_takeWhile_imp hc
  rw [← List.take_takeWhile]
  rcases Nat.lt_or_ge 4 (s.takeWhile (isDigit 16)).length with hlong | hshort
  · right
    rw [List.length_take_of_le hlong.le]
    cases hfifth : (s.takeWhile (isDigit 16)).drop 4 with
    | nil => exact absurd (List.drop_eq_nil_iff.mp hfifth) (by omega)
    | cons c r =>
      refine ⟨c, r ++ s.dropWhile (isDigit 16), ?_, ?_⟩
      · calc s.drop 4
            = (s.takeWhile (isDigit 16) ++ s.dropWhile (isDigit 16)).drop 4 := by rw [hsplit]
          _ = c :: (r ++ s.dropWhile (isDigit 16)) := by
            rw [List.drop_append_of_le_length hlong.le, hfifth, List.cons_append]
      · refine hdigits c (List.mem_of_mem_drop (i := 4) ?_)
        rw [hfifth]
        exact List.mem_cons_self ..
  · left
    by_contra hne
    rw [List.take_of_length_le hshort] at hne
    have hlt : ofDigits 16 (s.takeWhile (isDigit 16)) < 65536 :=
      (ofDigits_lt hdigits).trans_le (Nat.pow_le_pow_right (by decide) hshort)
    have hsome := readNumber_eq_some_iff.mpr
      (⟨hne, hshort, .inl rfl, rfl, rfl⟩ : _ ∧ _ ∧ _ ∧ (⟨_, hlt⟩ : Fin 65536).val = _ ∧ _)
    rw [h] at hsome
    cases hsome

/-- The walk takes a number for a piece exactly if the strict parser does. -/
theorem pieces_cons (hc : c ≠ ':') :
    pieces (n + 1) compressed (c :: s) =
      match readNumber 16 4 65536 true (c :: s) with
      | none => none
      | some (group, rest) =>
        if rest.head? = some '.' then if n = 0 then none else (octets 4 (c :: s)).bind embed
        else (after n compressed rest).map (some group :: ·) := by
  rw [pieces, if_neg hc]
  cases hnumber : readNumber 16 4 65536 true (c :: s) with
  | none =>
    rcases take_digits_of_none hnumber with hdigits | ⟨d, r, hdrop, hd⟩
    · simp only [hdigits, List.length_nil, List.drop_zero]
      split
      · simp
      · next heq => exact absurd (List.cons.inj heq).1 hc
      · next heq => cases heq
      · rfl
    · simp only [hdrop]
      split
      · next heq =>
        rw [(List.cons.inj heq).1] at hd
        exact absurd hd (by decide)
      · next heq =>
        rw [(List.cons.inj heq).1] at hd
        exact absurd hd (by decide)
      · next heq => cases heq
      · rfl
  | some read =>
    obtain ⟨group, rest⟩ := read
    obtain ⟨hdigits, hrest, hgroup⟩ := take_digits_of_some hnumber
    simp only [hrest, hgroup, hdigits, false_or]
    unfold after
    match rest with
    | [] => simp
    | d :: r =>
      by_cases hdot : d = '.'
      · simp [hdot]
      by_cases hcolon : d = ':'
      · by_cases hr : r = [] <;> simp [hcolon, hr]
      · split
        · next heq => exact absurd (List.cons.inj heq).1 hdot
        · next heq => exact absurd (List.cons.inj heq).1 hcolon
        · next heq => cases heq
        · simp [hdot, hcolon]

/-! ### The strict parser -/

theorem isDigit_of_decimal (h : isDigit 10 c = true) : isDigit 16 c = true := by
  obtain ⟨digit, hdigit⟩ := Option.isSome_iff_exists.mp h
  unfold toDigit at hdigit
  obtain ⟨hvalue, hlt⟩ := Option.mem_filter_iff.mp hdigit
  refine Option.isSome_iff_exists.mpr ⟨digit, Option.mem_filter_iff.mpr ⟨hvalue, ?_⟩⟩
  simp only [decide_eq_true_eq] at hlt ⊢
  omega

/-- Where an IPv4 address is, the strict parser would read a group and stop at a dot. -/
theorem readNumber_of_readV4 (h : readV4 s = some (addr, rest)) :
    ∃ group r, readNumber 16 4 65536 true s = some (group, '.' :: r) := by
  obtain ⟨⟨a, r⟩, ha, hrest⟩ := Option.bind_eq_some_iff.mp h
  obtain ⟨⟨b, r₂⟩, hb, hrest₂⟩ := Option.bind_eq_some_iff.mp hrest
  obtain ⟨hne, hlength, -, -, rfl⟩ := readNumber_eq_some_iff.mp ha
  have hsplit : s.takeWhile (isDigit 10) ++ s.dropWhile (isDigit 10) = s :=
    List.takeWhile_append_dropWhile
  have hdigits : ∀ c ∈ s.takeWhile (isDigit 10), isDigit 16 c = true :=
    fun c hc => isDigit_of_decimal (List.mem_takeWhile_imp hc)
  cases hdot : s.dropWhile (isDigit 10) with
  | nil => simp [readOctet, afterSeparator, hdot] at hb
  | cons c r =>
    obtain rfl : c = '.' := by
      by_contra hc
      simp [readOctet, afterSeparator, hdot, hc] at hb
    have hdot' : isDigit 16 '.' = false := by decide
    have htake : s.takeWhile (isDigit 16) = s.takeWhile (isDigit 10) := by
      conv_lhs => rw [← hsplit, hdot]
      rw [List.takeWhile_append_of_pos hdigits, List.takeWhile_cons_of_neg (by simp [hdot']),
        List.append_nil]
    have hdrop : s.dropWhile (isDigit 16) = '.' :: r := by
      rw [← drop_takeWhile, htake, drop_takeWhile, hdot]
    have hlt : ofDigits 16 (s.takeWhile (isDigit 16)) < 65536 := by
      rw [htake]
      exact (ofDigits_lt hdigits).trans_le
        (Nat.pow_le_pow_right (by decide) (hlength.trans (by decide : 3 ≤ 4)))
    refine ⟨⟨_, hlt⟩, r, readNumber_eq_some_iff.mpr ⟨?_, ?_, .inl rfl, rfl, hdrop.symm⟩⟩
    · rwa [htake]
    · rw [htake]
      omega

theorem readV4_of_none (h : readNumber 16 4 65536 true s = none) : readV4 s = none := by
  by_contra hne
  obtain ⟨⟨addr, rest⟩, hv4⟩ := Option.ne_none_iff_exists'.mp hne
  obtain ⟨group, r, hsome⟩ := readNumber_of_readV4 hv4
  rw [h] at hsome
  cases hsome

theorem readGroups_of_head (h : s.head? ≠ some ':') : readGroups n false s = ([], false, s) := by
  cases n with
  | zero => rfl
  | succ n =>
    cases s with
    | nil => simp [readGroups, afterSeparator]
    | cons c s =>
      have hc : c ≠ ':' := fun hc => h (congrArg some hc)
      simp [readGroups, afterSeparator, hc]

theorem readGroups_of_none (h : readNumber 16 4 65536 true s = none) :
    readGroups n false (':' :: s) = ([], false, ':' :: s) := by
  cases n with
  | zero => rfl
  | succ n => simp [readGroups, afterSeparator, h, readV4_of_none h]

theorem readGroups_of_some {group : Fin 65536}
    (h : readNumber 16 4 65536 true s = some (group, rest)) (hv4 : n = 0 ∨ readV4 s = none) :
    readGroups (n + 1) false (':' :: s) =
      ((readGroups n false rest).1.cons group, (readGroups n false rest).2) := by
  rcases hv4 with rfl | hv4
  · simp [readGroups, afterSeparator, h]
  · simp [readGroups, afterSeparator, h, hv4]

theorem readGroups_of_readV4 (h : readV4 s = some (addr, rest)) (hn : n ≠ 0) :
    readGroups (n + 1) false (':' :: s) = (addr.groups, true, rest) := by
  have hpos : 0 < n := Nat.pos_of_ne_zero hn
  simp [readGroups, afterSeparator, h, hpos]

theorem embed_octets (addr : V4) :
    embed [addr.a.val, addr.b.val, addr.c.val, addr.d.val] = some (addr.groups.map some) :=
  rfl

theorem resume_nil_eq_none (hne : s ≠ []) (htake : s.take 2 ≠ [':', ':']) :
    resume n compressed ([], embedded, s) = none := by
  simp [resume, hne, htake]

/-- Where a number ends at a dot, both parsers go back and try for an IPv4 address. -/
theorem embedded_eq {group : Fin 65536} (h : readNumber 16 4 65536 true s = some (group, rest))
    (hdot : rest.head? = some '.') :
    (if n = 0 then none else (octets 4 s).bind embed) =
      resume (n + 1) compressed (readGroups (n + 1) false (':' :: s)) := by
  -- The rest behind the number is of no use as it is.
  have hstuck : (resume n compressed (readGroups n false rest)).map (some group :: ·) = none := by
    cases rest with
    | nil => cases hdot
    | cons c r =>
      obtain rfl := Option.some.inj hdot
      rw [readGroups_of_head (by simp), resume_nil_eq_none (by simp) (by simp)]
      rfl
  by_cases hn : n = 0
  · rw [if_pos hn, readGroups_of_some h (.inl hn), resume_cons, hstuck]
  · rw [if_neg hn]
    cases hv4 : readV4 s with
    | none =>
      rw [readGroups_of_some h (.inr hv4), resume_cons, hstuck, octets_eq_none (by simp [hv4])]
      rfl
    | some read =>
      obtain ⟨addr, r⟩ := read
      rw [readGroups_of_readV4 hv4 hn]
      by_cases hr : r = []
      · subst hr
        rw [octets_iff.mpr ⟨addr, hv4, rfl⟩, Option.bind_some, embed_octets]
        simp [resume]
      · rw [octets_eq_none (by simp [hv4, hr])]
        simp [resume, hr]

/-- After a piece the walk and the strict parser come to the same. -/
theorem after_eq : after n compressed s = resume n compressed (readGroups n false s) := by
  induction n generalizing s with
  | zero =>
    match s with
    | [] => rfl
    | [c] => simp [after, resume, readGroups]
    | c :: d :: s => simp [after, resume, readGroups, pieces]
  | succ n ih =>
    match s with
    | [] => simp [after, resume, readGroups, afterSeparator]
    | c :: s =>
      by_cases hc : c = ':'
      · subst hc
        match s with
        | [] =>
          rw [readGroups_of_none rfl, resume_nil_eq_none (by simp) (by simp)]
          rfl
        | d :: s =>
          by_cases hd : d = ':'
          · -- The zeros are left out here.
            subst hd
            rw [readGroups_of_none (by simp [readNumber, isDigit, toDigit])]
            cases compressed <;> simp [after, resume, pieces]
          · have hafter : after (n + 1) compressed (':' :: d :: s) =
                pieces (n + 1) compressed (d :: s) := by
              simp [after]
            rw [hafter, pieces_cons hd]
            cases hnumber : readNumber 16 4 65536 true (d :: s) with
            | none =>
              rw [readGroups_of_none hnumber, resume_nil_eq_none (by simp) (by simp [hd])]
            | some read =>
              obtain ⟨group, rest⟩ := read
              simp only
              split
              · next hdot => exact embedded_eq hnumber hdot
              · next hdot =>
                have hv4 : readV4 (d :: s) = none := by
                  by_contra hne
                  obtain ⟨⟨addr, r⟩, hv4⟩ := Option.ne_none_iff_exists'.mp hne
                  obtain ⟨group', r', hsome⟩ := readNumber_of_readV4 hv4
                  rw [hnumber] at hsome
                  exact hdot (by rw [(Prod.mk.inj (Option.some.inj hsome)).2]; rfl)
                rw [readGroups_of_some hnumber (.inr hv4), ih]
                exact resume_cons.symm
      · have hhead : (c :: s).head? ≠ some ':' := by simpa using hc
        rw [readGroups_of_head hhead, resume_nil_eq_none (by simp) (by simp [hc])]
        simp [after, hc]

/-! ### The whole text -/

theorem length_readGroups_le {first : Bool} : (readGroups n first s).1.length ≤ n := by
  induction n generalizing first s with
  | zero => exact Nat.le_refl 0
  | succ n ih =>
    unfold readGroups
    split
    · next h =>
      have hpos : 0 < n := by
        by_contra hn
        rw [if_neg hn] at h
        cases h
      simp only [V4.groups, List.length_cons, List.length_nil]
      omega
    · split
      · exact Nat.succ_le_succ ih
      · exact Nat.zero_le _

theorem readGroups_of_nil {first : Bool} (h : (readGroups n first s).1 = []) :
    readGroups n first s = ([], false, s) := by
  cases n with
  | zero => rfl
  | succ n =>
    revert h
    unfold readGroups
    split
    · exact nofun
    · split
      · exact nofun
      · exact fun _ => rfl

/-- The first group of a text has no separator before it. -/
theorem readGroups_true :
    readGroups n true s =
      if (readGroups n false (':' :: s)).1 = [] then ([], false, s)
      else readGroups n false (':' :: s) := by
  cases n with
  | zero => rfl
  | succ n =>
    unfold readGroups
    simp only [afterSeparator, if_true, Bool.false_eq_true, if_false]
    split
    · rfl
    · split
      · rfl
      · rfl

theorem readGroups_true_of_none (h : readNumber 16 4 65536 true s = none) :
    readGroups n true s = ([], false, s) := by
  rw [readGroups_true, readGroups_of_none h]
  rfl

theorem readNumber_colon : readNumber 16 4 65536 true (':' :: s) = none := by
  simp [readNumber, isDigit, toDigit]

/-- At the start of the text, or behind the zeros that are left out, the two come to the same. -/
theorem pieces_eq (hhead : s.head? ≠ some ':' ∨ compressed = true) :
    pieces n compressed s = resume n compressed (readGroups n true s) := by
  match s with
  | [] =>
    rw [readGroups_true_of_none rfl]
    cases n <;> rfl
  | c :: s =>
    by_cases hc : c = ':'
    · obtain rfl := hhead.resolve_left (by simp [hc])
      rw [hc, readGroups_true_of_none readNumber_colon]
      cases n <;> simp [pieces, resume]
    · have hafter : after n compressed (':' :: c :: s) = pieces n compressed (c :: s) := by
        simp [after]
      rw [← hafter, after_eq, readGroups_true]
      split
      · next hnil =>
        rw [readGroups_of_nil hnil, resume_nil_eq_none (by simp) (by simp [hc]),
          resume_nil_eq_none (by simp) (by simp [hc])]
      · rfl

theorem expand_map (groups : List (Fin 65536)) : expand (groups.map some) = V6.of groups := by
  simp [expand, List.flatMap_map]

theorem expand_append (head tail : List (Fin 65536)) :
    expand (head.map some ++ none :: tail.map some) =
      V6.of (head ++ List.replicate (8 - head.length - tail.length) 0 ++ tail) := by
  have hlength : 9 - (head.length + (tail.length + 1)) = 8 - head.length - tail.length := by omega
  simp [expand, List.flatMap_map, hlength]

theorem exists_of_take_two (h : s.take 2 = [':', ':']) : ∃ r, s = ':' :: ':' :: r := by
  match s with
  | [] => cases h
  | [c] => simp at h
  | c :: d :: r =>
    obtain ⟨rfl, rfl⟩ : c = ':' ∧ d = ':' := by simpa using h
    exact ⟨r, rfl⟩

/-- The walk through the whole text. -/
theorem parseV6_eq : parseV6 s = (resume 8 false (readGroups 8 true s)).bind expand := by
  unfold parseV6
  split
  · next s =>
    rw [readGroups_true_of_none readNumber_colon]
    simp [resume]
  · next s htwo =>
    rw [readGroups_true_of_none readNumber_colon, resume_nil_eq_none (by simp)]
    · rfl
    · intro htake
      obtain ⟨r, heq⟩ := exists_of_take_two htake
      exact htwo r (List.cons.inj heq).2
  · next hone =>
    rw [pieces_eq (.inl ?_)]
    intro hhead
    match s with
    | [] => cases hhead
    | c :: s => exact hone s (by rw [Option.some.inj hhead])

/-- **The two parsers agree.** -/
theorem parseV6_eq_some_iff {addr : V6} :
    parseV6 s = some addr ↔ readV6 s = some (addr, []) := by
  rw [parseV6_eq]
  unfold readV6
  have hle : (readGroups 8 true s).1.length ≤ 8 := length_readGroups_le
  generalize readGroups 8 true s = read at hle ⊢
  obtain ⟨head, embedded, rest⟩ := read
  simp only at hle ⊢
  have hshort (hlength : head.length ≠ 8) : V6.of head = none := dif_neg hlength
  by_cases hlength : head.length = 8
  · rw [if_pos hlength]
    by_cases hrest : rest = []
    · simp [resume, hrest, expand_map]
    · simp [resume, hrest, hlength]
  rw [if_neg hlength]
  cases embedded with
  | true =>
    by_cases hrest : rest = []
    · simp [resume, hrest, expand_map, hshort hlength]
    · simp [resume, hrest]
  | false =>
    have hlt : head.length < 8 := by omega
    rw [if_neg (by decide)]
    split
    · next r =>
      have hwalk : resume 8 false (head, false, ':' :: ':' :: r) =
          (pieces (7 - head.length) true r).map (head.map some ++ none :: ·) := by
        have htail : 8 - head.length - 1 = 7 - head.length := by omega
        simp [resume, hlt, htail]
      rw [hwalk, pieces_eq (.inr rfl)]
      generalize readGroups (7 - head.length) true r = read
      obtain ⟨tail, embedded, rest⟩ := read
      by_cases hrest : rest = []
      · simp [resume, hrest, expand_append]
      · simp [resume, hrest]
    · next htwo =>
      by_cases hrest : rest = []
      · simp [resume, hrest, expand_map, hshort hlength]
      · have htake : rest.take 2 ≠ [':', ':'] := by
          intro htake
          obtain ⟨r, heq⟩ := exists_of_take_two htake
          exact htwo r heq
        simp [resume, hrest, htake]

end Url
