import SubmitSnap.Text.Bracketed
import SubmitSnap.Text.Header

/-!
# The host of a web address

Clients find the host of a web address by the rules of the URL standard, which make something of
nearly everything people write. Control characters are left out, a backslash is as good as a slash,
and an IPv4 address is one number or up to four, each decimal, octal or hexadecimal.

The parser is written as the standard has it. What it does with a text is also said without it: how
the text falls into parts, and which numbers it spells.

## The argument

The parser is a chain of cuts, each at the first or the last occurrence of some character, and
each cut is turned into an equation: the text is the part before, the character and the part
behind, and the character does not occur where it must not (`splitScheme_eq_some_iff`,
`dropUserinfo_eq_iff`, `splitPort_eq_iff`, `authority_eq_iff`). Put together they are the
constructor of `Names`. The host is then a text by itself, and which addresses it spells is a
matter of numbers (`Numeral`, `SpellsV4`) or of what stands between brackets.

## Main definitions

* `contacts` — the host of an address.
* `Names` — how an address falls into parts, one of which is the host.
* `Numeral`, `SpellsV4`, `Spells` — how internet addresses may be written as hosts.

## Main results

* `readNumeral_eq_some_iff`, `parseV4_eq_some_iff` — the parsers of numbers and of IPv4 addresses.
* `contacts_eq_ip_iff` — which texts are addresses of which internet addresses.
-/

namespace Url

open Ip

inductive Host where
  | domain (name : List Char)
  | ip (addr : Ip.Addr)
  deriving DecidableEq, Repr

/-! ### IPv4 addresses -/

/-- The number that a text of digits denotes. -/
def readDigits (radix : ℕ) (s : List Char) : Option ℕ :=
  if s.all (isDigit radix) then some (ofDigits radix s) else none

/-- A number in the notations of C. -/
def readNumeral (s : List Char) : Option ℕ :=
  if s = [] then none
  else if s.take 2 = ['0', 'x'] ∨ s.take 2 = ['0', 'X'] then readDigits 16 (s.drop 2)
  else if 2 ≤ s.length ∧ s.head? = some '0' then readDigits 8 s.tail
  else readDigits 10 s

/-- The parts between the dots; one dot at the end does not count. -/
def labels (name : List Char) : List (List Char) :=
  let parts := name.splitOn '.'
  if parts.getLast? = some [] ∧ 1 < parts.length then parts.dropLast else parts

/-- The address with this number. -/
def ofNat (n : ℕ) : V4 :=
  ⟨Fin.ofNat 256 (n / 256 ^ 3), Fin.ofNat 256 (n / 256 ^ 2), Fin.ofNat 256 (n / 256),
    Fin.ofNat 256 n⟩

/-- The last number fills what the octets before it leave open. -/
def fill (octets : List ℕ) (last : ℕ) : ℕ :=
  octets.foldl (fun n octet => n * 256 + octet) 0 * 256 ^ (4 - octets.length) + last

def assemble (numbers : List ℕ) : Option V4 :=
  numbers.getLast?.bind fun last =>
    let octets := numbers.dropLast
    if octets.length ≤ 3 ∧ octets.all (· < 256) ∧ last < 256 ^ (4 - octets.length) then
      some (ofNat (fill octets last))
    else none

def parseV4 (name : List Char) : Option V4 := ((labels name).mapM readNumeral).bind assemble

/-- A name that ends in a number is an IPv4 address or nothing at all. -/
def endsInNumber (name : List Char) : Bool :=
  (labels name).getLast?.any fun label =>
    (label ≠ [] && label.all (isDigit 10)) || (readNumeral label).isSome

/-! ### Hosts -/

/-- What is left of a host when percent signs are resolved. -/
def decoded (host : List Char) : List UInt8 :=
  Header.percentDecode (host.flatMap String.utf8EncodeChar)

/-- The host a text stands for; `to_ascii` maps a name in any alphabet to one in ASCII. -/
def parseHost (to_ascii : List UInt8 → Option (List Char)) (host : List Char) : Option Host :=
  match host with
  | [] => none
  | c :: s =>
    if c = '[' then
      if host.getLast? = some ']' then (parseV6 s.dropLast).map (.ip ∘ .v6) else none
    else
      (to_ascii (decoded host)).bind fun name =>
        if endsInNumber name then (parseV4 name).map (.ip ∘ .v4) else some (.domain name)

/-! ### Addresses -/

/-- Control characters and the blank, which are dropped at both ends. -/
def isControl (c : Char) : Bool := c.toNat ≤ 32

/-- What is dropped wherever it is. -/
def isSkipped (c : Char) : Bool := c = '\t' || c = '\n' || c = '\r'

def clean (url : List Char) : List Char :=
  ((url.dropWhile isControl).reverse.dropWhile isControl).reverse.filter (!isSkipped ·)

def isSchemeChar (c : Char) : Bool := c.isAlphanum || c = '+' || c = '-' || c = '.'

/-- The scheme and what follows its colon. -/
def splitScheme (s : List Char) : Option (List Char × List Char) :=
  match s.dropWhile isSchemeChar with
  | c :: rest =>
    if c = ':' ∧ s.head?.any Char.isAlpha = true then some (s.takeWhile isSchemeChar, rest)
    else none
  | [] => none

/-- The schemes a web client knows. -/
def isWeb (scheme : List Char) : Bool :=
  scheme.map Char.toLower = "http".toList || scheme.map Char.toLower = "https".toList

def isSlash (c : Char) : Bool := c = '/' || c = '\\'

def endsAuthority (c : Char) : Bool := isSlash c || c = '?' || c = '#'

/-- User, host and port, behind as many slashes as there are. -/
def authority (rest : List Char) : List Char :=
  (rest.dropWhile isSlash).takeWhile (!endsAuthority ·)

/-- What stands behind the last `@`. -/
def dropUserinfo (authority : List Char) : List Char :=
  (authority.reverse.takeWhile (· != '@')).reverse

/-- The host, and the port behind the first colon that is not in brackets. -/
def splitPort : Bool → List Char → List Char × Option (List Char)
  | _, [] => ([], none)
  | inside, c :: s =>
    if c = ':' ∧ inside = false then ([], some s)
    else
      let (host, port) := splitPort (c = '[' || (inside && c != ']')) s
      (c :: host, port)

def isPort (digits : List Char) : Bool := digits.all (isDigit 10) && ofDigits 10 digits < 65536

/-- The host that a client contacts for an address. -/
def contacts (to_ascii : List UInt8 → Option (List Char)) (url : List Char) : Option Host :=
  (splitScheme (clean url)).bind fun (scheme, rest) =>
    if isWeb scheme then
      let (host, port) := splitPort false (dropUserinfo (authority rest))
      if port.all isPort then parseHost to_ascii host else none
    else none

/-! ### How numbers are written -/

/-- The texts of a number. -/
inductive Numeral : List Char → ℕ → Prop
  | decimal {digits : List Char} (hne : digits ≠ [])
      (hdigits : ∀ c ∈ digits, isDigit 10 c = true)
      (hzero : digits.head? = some '0' → digits.length = 1) :
      Numeral digits (ofDigits 10 digits)
  | octal {digits : List Char} (hne : digits ≠ [])
      (hdigits : ∀ c ∈ digits, isDigit 8 c = true) :
      Numeral ('0' :: digits) (ofDigits 8 digits)
  | hexadecimal {x : Char} {digits : List Char} (hx : x = 'x' ∨ x = 'X')
      (hdigits : ∀ c ∈ digits, isDigit 16 c = true) :
      Numeral ('0' :: x :: digits) (ofDigits 16 digits)

variable {s name host : List Char} {n : ℕ} {addr : V4}

theorem readDigits_eq_some_iff {radix : ℕ} :
    readDigits radix s = some n ↔ (∀ c ∈ s, isDigit radix c = true) ∧ ofDigits radix s = n := by
  simp [readDigits]

/-- The parser of numbers reads the texts of numbers. -/
theorem readNumeral_eq_some_iff : readNumeral s = some n ↔ Numeral s n := by
  constructor
  · intro h
    match s with
    | [] => cases h
    | [c] =>
      obtain ⟨hdigits, rfl⟩ := readDigits_eq_some_iff.mp (by simpa [readNumeral] using h)
      exact .decimal (by simp) hdigits fun _ => rfl
    | c :: d :: s =>
      by_cases hc : c = '0'
      · subst hc
        by_cases hd : d = 'x' ∨ d = 'X'
        · obtain ⟨hdigits, rfl⟩ := readDigits_eq_some_iff.mp (by simpa [readNumeral, hd] using h)
          exact .hexadecimal hd hdigits
        · obtain ⟨hdigits, rfl⟩ := readDigits_eq_some_iff.mp (by simpa [readNumeral, hd] using h)
          exact .octal (by simp) hdigits
      · obtain ⟨hdigits, rfl⟩ := readDigits_eq_some_iff.mp (by simpa [readNumeral, hc] using h)
        exact .decimal (by simp) hdigits fun hhead => absurd (Option.some.inj hhead) hc
  · intro h
    cases h with
    | decimal hne hdigits hzero =>
      have hread : readDigits 10 s = some (ofDigits 10 s) :=
        readDigits_eq_some_iff.mpr ⟨hdigits, rfl⟩
      match s with
      | [] => exact absurd rfl hne
      | [c] => simpa [readNumeral] using hread
      | c :: d :: s =>
        have hc : c ≠ '0' := by
          rintro rfl
          simp at hzero
        simpa [readNumeral, hc] using hread
    | @octal digits hne hdigits =>
      have hread : readDigits 8 digits = some (ofDigits 8 digits) :=
        readDigits_eq_some_iff.mpr ⟨hdigits, rfl⟩
      match digits with
      | [] => exact absurd rfl hne
      | d :: digits =>
        have hd : ¬ (d = 'x' ∨ d = 'X') := by
          intro hd
          have hdigit := hdigits d (List.mem_cons_self ..)
          rcases hd with rfl | rfl <;> exact absurd hdigit (by decide)
        simpa [readNumeral, hd] using hread
    | @hexadecimal x digits hx hdigits =>
      have hread : readDigits 16 digits = some (ofDigits 16 digits) :=
        readDigits_eq_some_iff.mpr ⟨hdigits, rfl⟩
      simpa [readNumeral, hx] using hread

theorem not_mem_of_numeral (h : Numeral s n) : '.' ∉ s := by
  have hdot (radix : ℕ) {digits : List Char} (hdigits : ∀ c ∈ digits, isDigit radix c = true) :
      '.' ∉ digits := by
    intro hmem
    have hdigit := hdigits '.' hmem
    simp [isDigit, toDigit] at hdigit
  cases h with
  | decimal hne hdigits hzero => exact hdot 10 hdigits
  | octal hne hdigits => simpa using hdot 8 hdigits
  | hexadecimal hx hdigits =>
    rcases hx with rfl | rfl <;> simpa using hdot 16 hdigits

theorem ne_nil_of_numeral (h : Numeral s n) : s ≠ [] := by
  cases h with
  | decimal hne => exact hne
  | octal => exact List.cons_ne_nil _ _
  | hexadecimal => exact List.cons_ne_nil _ _

/-! ### Parts between dots -/

theorem intercalate_concat {parts : List (List Char)} (hne : parts ≠ []) (part : List Char) :
    ['.'].intercalate (parts ++ [part]) = ['.'].intercalate parts ++ '.' :: part := by
  induction parts with
  | nil => exact absurd rfl hne
  | cons first parts ih =>
    cases parts with
    | nil => simp
    | cons second parts =>
      rw [List.cons_append, List.cons_append, List.intercalate_cons_cons, ← List.cons_append,
        ih (List.cons_ne_nil _ _), List.intercalate_cons_cons]
      simp

/-- A name is its parts with dots between them, and perhaps one more at its end. -/
theorem eq_intercalate_labels (name : List Char) :
    name = ['.'].intercalate (labels name) ∨ name = ['.'].intercalate (labels name) ++ ['.'] := by
  have hname : ['.'].intercalate (name.splitOn '.') = name := List.intercalate_splitOn '.'
  simp only [labels]
  split
  · next h =>
    obtain ⟨hlast, hlength⟩ := h
    right
    have hsplit := List.dropLast_append_getLast? _ hlast
    have hne : (name.splitOn '.').dropLast ≠ [] := by
      intro hnil
      rw [← hsplit, hnil] at hlength
      simp at hlength
    calc name = ['.'].intercalate (name.splitOn '.') := hname.symm
      _ = ['.'].intercalate ((name.splitOn '.').dropLast ++ [[]]) := by rw [hsplit]
      _ = ['.'].intercalate (name.splitOn '.').dropLast ++ ['.'] := intercalate_concat hne []
  · exact .inl hname.symm

theorem labels_of_intercalate {parts : List (List Char)} (hne : parts ≠ [])
    (hdot : ∀ part ∈ parts, '.' ∉ part) (hempty : ∀ part ∈ parts, part ≠ [])
    (hname : name = ['.'].intercalate parts ∨ name = ['.'].intercalate parts ++ ['.']) :
    labels name = parts := by
  unfold labels
  rcases hname with rfl | rfl
  · rw [List.splitOn_intercalate '.' hdot hne, if_neg]
    rintro ⟨hlast, -⟩
    exact hempty _ (List.mem_of_getLast? hlast) rfl
  · rw [← intercalate_concat hne, List.splitOn_intercalate '.' ?_ (by simp), if_pos]
    · simp
    · have hlength := List.length_pos_iff.mpr hne
      simp
      omega
    · intro part hpart
      rcases List.mem_append.mp hpart with hpart | hpart
      · exact hdot part hpart
      · rw [List.mem_singleton.mp hpart]
        exact List.not_mem_nil

/-! ### IPv4 addresses as they are written -/

/-- The texts of an IPv4 address: octets and a number that fills the rest, with dots between
them. -/
def SpellsV4 (name : List Char) (addr : V4) : Prop :=
  ∃ (parts : List (List Char)) (octets : List ℕ) (last : ℕ),
    List.Forall₂ Numeral parts (octets ++ [last]) ∧
    (name = ['.'].intercalate parts ∨ name = ['.'].intercalate parts ++ ['.']) ∧
    octets.length ≤ 3 ∧ (∀ n ∈ octets, n < 256) ∧ last < 256 ^ (4 - octets.length) ∧
    addr = ofNat (fill octets last)

theorem mapM_eq_some_iff {α β : Type} {f : α → Option β} {l : List α} {r : List β} :
    l.mapM f = some r ↔ List.Forall₂ (fun a b => f a = some b) l r := by
  induction l generalizing r with
  | nil => simp [eq_comm]
  | cons a l ih =>
    rw [List.mapM_cons]
    constructor
    · intro h
      obtain ⟨b, hb, h⟩ := Option.bind_eq_some_iff.mp h
      obtain ⟨bs, hbs, h⟩ := Option.bind_eq_some_iff.mp h
      obtain rfl := Option.some.inj h
      exact .cons hb (ih.mp hbs)
    · intro h
      cases h with
      | cons hb hbs => simp [hb, ih.mpr hbs]

theorem assemble_eq_some_iff {numbers : List ℕ} :
    assemble numbers = some addr ↔ ∃ octets last, numbers = octets ++ [last] ∧
      octets.length ≤ 3 ∧ (∀ n ∈ octets, n < 256) ∧ last < 256 ^ (4 - octets.length) ∧
      addr = ofNat (fill octets last) := by
  unfold assemble
  rw [Option.bind_eq_some_iff]
  constructor
  · rintro ⟨last, hlast, h⟩
    simp only at h
    split at h
    · next hfits =>
      exact ⟨numbers.dropLast, last, (List.dropLast_append_getLast? _ hlast).symm, hfits.1,
        by simpa using hfits.2.1, hfits.2.2, (Option.some.inj h).symm⟩
    · cases h
  · rintro ⟨octets, last, rfl, hlength, hoctets, hlast, rfl⟩
    refine ⟨last, by simp, ?_⟩
    simp only [List.dropLast_concat]
    rw [if_pos ⟨hlength, by simpa using hoctets, hlast⟩]

theorem exists_numeral {parts : List (List Char)} {numbers : List ℕ}
    (hparts : List.Forall₂ Numeral parts numbers) : ∀ part ∈ parts, ∃ n, Numeral part n := by
  induction hparts with
  | nil => exact nofun
  | cons hpart _ ih => exact List.forall_mem_cons.mpr ⟨⟨_, hpart⟩, ih⟩

theorem labels_of_numerals {parts : List (List Char)} {numbers : List ℕ} (hne : numbers ≠ [])
    (hparts : List.Forall₂ Numeral parts numbers)
    (hname : name = ['.'].intercalate parts ∨ name = ['.'].intercalate parts ++ ['.']) :
    labels name = parts := by
  have hnumeral := exists_numeral hparts
  refine labels_of_intercalate ?_ (fun part hpart => ?_) (fun part hpart => ?_) hname
  · rintro rfl
    cases hparts
    exact hne rfl
  · obtain ⟨n, hn⟩ := hnumeral part hpart
    exact not_mem_of_numeral hn
  · obtain ⟨n, hn⟩ := hnumeral part hpart
    exact ne_nil_of_numeral hn

/-- The parser of IPv4 addresses reads their texts. -/
theorem parseV4_eq_some_iff : parseV4 name = some addr ↔ SpellsV4 name addr := by
  unfold parseV4
  rw [Option.bind_eq_some_iff]
  constructor
  · rintro ⟨numbers, hnumbers, h⟩
    obtain ⟨octets, last, rfl, hfits⟩ := assemble_eq_some_iff.mp h
    refine ⟨labels name, octets, last, ?_, eq_intercalate_labels name, hfits⟩
    exact (mapM_eq_some_iff.mp hnumbers).imp fun _ _ => readNumeral_eq_some_iff.mp
  · rintro ⟨parts, octets, last, hparts, hname, hfits⟩
    rw [labels_of_numerals (by simp) hparts hname]
    refine ⟨octets ++ [last], mapM_eq_some_iff.mpr ?_,
      assemble_eq_some_iff.mpr ⟨octets, last, rfl, hfits⟩⟩
    exact hparts.imp fun _ _ => readNumeral_eq_some_iff.mpr

theorem endsInNumber_of_spellsV4 (h : SpellsV4 name addr) : endsInNumber name = true := by
  obtain ⟨parts, octets, last, hparts, hname, -⟩ := h
  unfold endsInNumber
  rw [labels_of_numerals (by simp) hparts hname]
  cases hlast : parts.getLast? with
  | none =>
    rw [List.getLast?_eq_none_iff.mp hlast] at hparts
    simpa using hparts.length_eq
  | some part =>
    obtain ⟨n, hn⟩ := exists_numeral hparts part (List.mem_of_getLast? hlast)
    simp [readNumeral_eq_some_iff.mpr hn]

/-! ### Internet addresses as hosts -/

/-- The texts of internet addresses as hosts. -/
inductive Spells (to_ascii : List UInt8 → Option (List Char)) : List Char → Ip.Addr → Prop
  | v4 {host name : List Char} {addr : V4} (hne : host ≠ []) (hhead : host.head? ≠ some '[')
      (hname : to_ascii (decoded host) = some name) (haddr : SpellsV4 name addr) :
      Spells to_ascii host (.v4 addr)
  | v6 {text : List Char} {addr : V6} (haddr : Ip.parse text = some (.v6 addr)) :
      Spells to_ascii ('[' :: text ++ [']']) (.v6 addr)

theorem readV6_of_readV4 {rest : List Char} (h : readV4 s = some (addr, rest)) :
    readV6 s = none := by
  have hgroups : readGroups 8 true s = (addr.groups, true, rest) := by
    simp [readGroups, afterSeparator, h]
  simp [readV6, hgroups, V4.groups]

theorem parse_eq_v6_iff {addr : V6} :
    Ip.parse s = some (.v6 addr) ↔ readV6 s = some (addr, []) := by
  unfold Ip.parse
  cases hv4 : readV4 s with
  | some read =>
    obtain ⟨addr', rest⟩ := read
    rw [readV6_of_readV4 hv4]
    cases rest <;> simp
  | none =>
    cases hv6 : readV6 s with
    | none => simp
    | some read =>
      obtain ⟨addr', rest⟩ := read
      cases rest <;> simp

variable {to_ascii : List UInt8 → Option (List Char)} {url : List Char}

/-- A host is an internet address exactly if it is a text of it. -/
theorem parseHost_eq_ip_iff {addr : Ip.Addr} :
    parseHost to_ascii host = some (.ip addr) ↔ Spells to_ascii host addr := by
  constructor
  · intro h
    cases host with
    | nil => cases h
    | cons c s =>
      rw [parseHost] at h
      by_cases hc : c = '['
      · subst hc
        rw [if_pos rfl] at h
        split at h
        · next hlast =>
          obtain ⟨addr, hread, haddr⟩ := Option.map_eq_some_iff.mp h
          obtain rfl := Host.ip.inj haddr
          have hs : s = s.dropLast ++ [']'] := by
            cases s with
            | nil => cases hlast
            | cons d s => exact (List.dropLast_append_getLast? ']' (by simpa using hlast)).symm
          rw [hs]
          exact .v6 (parse_eq_v6_iff.mpr (parseV6_eq_some_iff.mp hread))
        · cases h
      · rw [if_neg hc] at h
        obtain ⟨name, hname, h⟩ := Option.bind_eq_some_iff.mp h
        split at h
        · obtain ⟨addr, hread, haddr⟩ := Option.map_eq_some_iff.mp h
          obtain rfl := Host.ip.inj haddr
          exact .v4 (List.cons_ne_nil _ _) (by simpa using hc) hname (parseV4_eq_some_iff.mp hread)
        · cases h
  · intro h
    cases h with
    | @v4 host name addr hne hhead hname haddr =>
      cases host with
      | nil => exact absurd rfl hne
      | cons c s =>
        have hc : c ≠ '[' := fun hc => hhead (congrArg some hc)
        rw [parseHost, if_neg hc, hname, Option.bind_some,
          if_pos (endsInNumber_of_spellsV4 haddr), parseV4_eq_some_iff.mpr haddr]
        rfl
    | @v6 text addr haddr =>
      have hread := parseV6_eq_some_iff.mpr (parse_eq_v6_iff.mp haddr)
      have hlast : ('[' :: (text ++ [']'])).getLast? = some ']' := by
        rw [← List.cons_append, List.getLast?_concat]
      simp [parseHost, hread, hlast]

/-! ### How an address falls into parts -/

/-- Whether a host ends inside of brackets; `none` if a colon outside of them ends it before. -/
def brackets : Bool → List Char → Option Bool
  | inside, [] => some inside
  | inside, c :: s =>
    if c = ':' ∧ inside = false then none else brackets (c = '[' || (inside && c != ']')) s

/-- The hosts that an address names: one for each way to take it apart, once it is without what
clients leave out. -/
inductive Names (url : List Char) : List Char → Prop
  | intro {scheme slashes userinfo host port tail : List Char}
      (hclean : clean url =
        scheme ++ ':' :: (slashes ++ (userinfo ++ (host ++ port) ++ tail)))
      (hscheme : isWeb scheme = true)
      (hslashes : ∀ c ∈ slashes, isSlash c = true)
      (hauthority : ∀ c ∈ userinfo ++ (host ++ port), endsAuthority c = false)
      (huserinfo : userinfo = [] ∨ userinfo.getLast? = some '@')
      (hat : '@' ∉ host ++ port)
      (hport : port = [] ∧ (brackets false host).isSome = true ∨
        ∃ digits, port = ':' :: digits ∧ isPort digits = true ∧ brackets false host = some false)
      (htail : ∀ c ∈ tail.head?, endsAuthority c = true) : Names url host

section

variable {p : Char → Bool} {l r : List Char}

theorem takeWhile_append (hl : ∀ c ∈ l, p c = true) (hr : ∀ c ∈ r.head?, p c = false) :
    (l ++ r).takeWhile p = l := by
  rw [List.takeWhile_append_of_pos hl]
  cases r with
  | nil => simp
  | cons c r => rw [List.takeWhile_cons_of_neg (by simp [hr c rfl]), List.append_nil]

theorem dropWhile_append (hl : ∀ c ∈ l, p c = true) (hr : ∀ c ∈ r.head?, p c = false) :
    (l ++ r).dropWhile p = r := by
  rw [← drop_takeWhile, takeWhile_append hl hr]
  exact List.drop_left

theorem head_dropWhile {c : Char} (h : c ∈ (l.dropWhile p).head?) : p c = false := by
  have hhead := List.head?_dropWhile_not p l
  rw [Option.mem_def.mp h] at hhead
  exact hhead

end

theorem isAlpha_of_toLower {c : Char} (h : c.toLower.isAlpha = true) : c.isAlpha = true := by
  unfold Char.toLower at h
  split at h
  · next hupper =>
    have hc : c.isUpper = true := by simpa [Char.isUpper] using hupper
    simp [Char.isAlpha, hc]
  · exact h

theorem isAlpha_of_isWeb {scheme : List Char} (h : isWeb scheme = true) :
    ∀ c ∈ scheme, c.isAlpha = true := by
  have hlower : ∀ c ∈ scheme.map Char.toLower, c.isAlpha = true := by
    rcases (Bool.or_eq_true _ _).mp h with h | h
    · rw [of_decide_eq_true h]
      exact Header.forall_of_all (by decide)
    · rw [of_decide_eq_true h]
      exact Header.forall_of_all (by decide)
  exact fun c hc => isAlpha_of_toLower (hlower _ (List.mem_map_of_mem hc))

theorem splitScheme_eq_some_iff {scheme rest : List Char} (h : isWeb scheme = true) :
    splitScheme s = some (scheme, rest) ↔ s = scheme ++ ':' :: rest := by
  unfold splitScheme
  constructor
  · intro hsplit
    split at hsplit
    · next c r hdrop =>
      split at hsplit
      · next hcolon =>
        obtain ⟨rfl, rfl⟩ := Prod.mk.inj (Option.some.inj hsplit)
        rw [← hcolon.1, ← hdrop, List.takeWhile_append_dropWhile]
      · cases hsplit
    · cases hsplit
  · rintro rfl
    have halpha := isAlpha_of_isWeb h
    have hscheme : ∀ c ∈ scheme, isSchemeChar c = true := fun c hc => by
      simp [isSchemeChar, Char.isAlphanum, halpha c hc]
    have hcolon : ∀ c ∈ (':' :: rest).head?, isSchemeChar c = false := by
      rintro c hc
      rw [← Option.some.inj hc]
      decide
    rw [dropWhile_append hscheme hcolon, takeWhile_append hscheme hcolon]
    cases scheme with
    | nil => cases h
    | cons c scheme => simp [halpha c (List.mem_cons_self ..)]

theorem dropUserinfo_eq_iff {authority hostport : List Char} :
    dropUserinfo authority = hostport ↔ ∃ userinfo, authority = userinfo ++ hostport ∧
      (userinfo = [] ∨ userinfo.getLast? = some '@') ∧ '@' ∉ hostport := by
  unfold dropUserinfo
  constructor
  · rintro rfl
    have hsplit : authority.reverse.takeWhile (· != '@') ++ authority.reverse.dropWhile (· != '@') =
        authority.reverse := List.takeWhile_append_dropWhile
    refine ⟨(authority.reverse.dropWhile (· != '@')).reverse, ?_, ?_, ?_⟩
    · rw [← List.reverse_append, hsplit, List.reverse_reverse]
    · rw [List.getLast?_reverse, List.reverse_eq_nil_iff]
      cases hhead : (authority.reverse.dropWhile (· != '@')).head? with
      | none => exact .inl (List.head?_eq_none_iff.mp hhead)
      | some c => exact .inr (congrArg some (by simpa using head_dropWhile hhead))
    · intro hat
      simpa using List.mem_takeWhile_imp (List.mem_reverse.mp hat)
  · rintro ⟨userinfo, rfl, huserinfo, hat⟩
    rw [List.reverse_append, takeWhile_append, List.reverse_reverse]
    · intro c hc
      have hne : c ≠ '@' := fun heq => hat (heq ▸ List.mem_reverse.mp hc)
      simpa using hne
    · intro c hc
      rw [List.head?_reverse] at hc
      rcases huserinfo with rfl | hlast
      · cases hc
      · rw [hlast] at hc
        simp [← Option.some.inj hc]

theorem splitPort_eq_iff {inside : Bool} {port : Option (List Char)} :
    splitPort inside s = (host, port) ↔
      port = none ∧ s = host ∧ (brackets inside host).isSome = true ∨
      ∃ digits, port = some digits ∧ s = host ++ ':' :: digits ∧
        brackets inside host = some false := by
  induction s generalizing inside host with
  | nil =>
    cases host with
    | nil => simp [splitPort, brackets, eq_comm]
    | cons d host => simp [splitPort]
  | cons c s ih =>
    by_cases hc : c = ':' ∧ inside = false
    · rw [splitPort, if_pos hc]
      obtain ⟨rfl, rfl⟩ := hc
      cases host with
      | nil => simp [brackets, eq_comm]
      | cons d host =>
        have hbrackets (hd : ':' = d) : brackets false (d :: host) = none := by
          simp [brackets, ← hd]
        constructor
        · intro h
          cases (Prod.mk.inj h).1
        · rintro (⟨-, hs, hsome⟩ | ⟨digits, -, hs, hsome⟩)
          · rw [hbrackets (List.cons.inj hs).1] at hsome
            cases hsome
          · rw [hbrackets (List.cons.inj hs).1] at hsome
            cases hsome
    · rw [splitPort, if_neg hc]
      cases host with
      | nil =>
        constructor
        · intro h
          cases (Prod.mk.inj h).1
        · rintro (⟨-, hs, -⟩ | ⟨digits, -, hs, hsome⟩)
          · cases hs
          · exact absurd ⟨(List.cons.inj hs).1, Option.some.inj hsome⟩ hc
      | cons d host =>
        by_cases hd : c = d
        · subst hd
          have hbrackets : brackets inside (c :: host) =
              brackets (c = '[' || (inside && c != ']')) host := by
            rw [brackets, if_neg hc]
          rw [hbrackets]
          simp only [Prod.mk.injEq, List.cons.injEq, true_and, List.cons_append]
          rw [← ih, Prod.mk.injEq]
        · simp [hd]

/-- The host and a port that is one, or none. -/
theorem exists_port_iff : (∃ port, splitPort false s = (host, port) ∧ port.all isPort = true) ↔
    ∃ port, s = host ++ port ∧ (port = [] ∧ (brackets false host).isSome = true ∨
      ∃ digits, port = ':' :: digits ∧ isPort digits = true ∧
        brackets false host = some false) := by
  constructor
  · rintro ⟨port, hsplit, hport⟩
    rcases splitPort_eq_iff.mp hsplit with ⟨-, rfl, hhost⟩ | ⟨digits, rfl, rfl, hhost⟩
    · exact ⟨[], (List.append_nil s).symm, .inl ⟨rfl, hhost⟩⟩
    · exact ⟨':' :: digits, rfl, .inr ⟨digits, rfl, hport, hhost⟩⟩
  · rintro ⟨port, rfl, ⟨rfl, hhost⟩ | ⟨digits, rfl, hport, hhost⟩⟩
    · exact ⟨none, splitPort_eq_iff.mpr (.inl ⟨rfl, List.append_nil host, hhost⟩), rfl⟩
    · exact ⟨some digits, splitPort_eq_iff.mpr (.inr ⟨digits, rfl, rfl, hhost⟩), hport⟩

theorem authority_eq_iff {rest hostport : List Char} (hne : hostport ≠ []) :
    authority rest = hostport ↔ ∃ slashes tail, rest = slashes ++ (hostport ++ tail) ∧
      (∀ c ∈ slashes, isSlash c = true) ∧ (∀ c ∈ hostport, endsAuthority c = false) ∧
      ∀ c ∈ tail.head?, endsAuthority c = true := by
  unfold authority
  constructor
  · rintro rfl
    refine ⟨rest.takeWhile isSlash, (rest.dropWhile isSlash).dropWhile (!endsAuthority ·), ?_,
      fun c hc => List.mem_takeWhile_imp hc, fun c hc => ?_, fun c hc => ?_⟩
    · rw [List.takeWhile_append_dropWhile, List.takeWhile_append_dropWhile]
    · simpa using List.mem_takeWhile_imp hc
    · simpa using head_dropWhile hc
  · rintro ⟨slashes, tail, rfl, hslashes, hhostport, htail⟩
    rw [dropWhile_append hslashes ?_, takeWhile_append ?_ ?_]
    · intro c hc
      simp [hhostport c hc]
    · intro c hc
      simp [htail c hc]
    · intro c hc
      rw [List.head?_append_of_ne_nil _ hne] at hc
      have hends := hhostport c (List.mem_of_mem_head? hc)
      exact (Bool.or_eq_false_iff.mp (Bool.or_eq_false_iff.mp hends).1).1

theorem ne_nil_of_spells {addr : Ip.Addr} (h : Spells to_ascii host addr) : host ≠ [] := by
  cases h with
  | v4 hne => exact hne
  | v6 => exact List.cons_ne_nil _ _

theorem contacts_eq_some_iff {contacted : Host} :
    contacts to_ascii url = some contacted ↔ ∃ scheme rest host port,
      splitScheme (clean url) = some (scheme, rest) ∧ isWeb scheme = true ∧
      splitPort false (dropUserinfo (authority rest)) = (host, port) ∧ port.all isPort = true ∧
      parseHost to_ascii host = some contacted := by
  rw [contacts, Option.bind_eq_some_iff]
  constructor
  · rintro ⟨⟨scheme, rest⟩, hscheme, h⟩
    simp only at h
    split at h
    · next hweb =>
      split at h
      · next hport => exact ⟨scheme, rest, _, _, hscheme, hweb, rfl, hport, h⟩
      · cases h
    · cases h
  · rintro ⟨scheme, rest, host, port, hscheme, hweb, hsplit, hport, hparse⟩
    refine ⟨(scheme, rest), hscheme, ?_⟩
    simp only [hweb, hsplit, hport, if_true]
    exact hparse

/-- A client contacts an internet address exactly if the host that the address names is a text of
it. -/
theorem contacts_eq_ip_iff {addr : Ip.Addr} :
    contacts to_ascii url = some (.ip addr) ↔
      ∃ host, Names url host ∧ Spells to_ascii host addr := by
  rw [contacts_eq_some_iff]
  constructor
  · rintro ⟨scheme, rest, host, port, hscheme, hweb, hsplit, hport, hparse⟩
    have hspells := parseHost_eq_ip_iff.mp hparse
    obtain ⟨text, hhost, htext⟩ := exists_port_iff.mp ⟨port, hsplit, hport⟩
    obtain ⟨userinfo, hauthority, huserinfo, hat⟩ := dropUserinfo_eq_iff.mp hhost
    have hne : userinfo ++ (host ++ text) ≠ [] := by
      simp [ne_nil_of_spells hspells]
    obtain ⟨slashes, tail, hrest, hslashes, hends, htail⟩ := (authority_eq_iff hne).mp hauthority
    have hclean := (splitScheme_eq_some_iff hweb).mp hscheme
    rw [hrest] at hclean
    exact ⟨host, .intro hclean hweb hslashes hends huserinfo hat htext htail, hspells⟩
  · rintro ⟨host, names, hspells⟩
    cases names with
    | @intro scheme slashes userinfo host text tail hclean hscheme hslashes hauthority huserinfo
        hat htext htail =>
      have hne : userinfo ++ (host ++ text) ≠ [] := by
        simp [ne_nil_of_spells hspells]
      have hhostport : authority (slashes ++ (userinfo ++ (host ++ text) ++ tail)) =
          userinfo ++ (host ++ text) :=
        (authority_eq_iff hne).mpr ⟨slashes, tail, rfl, hslashes, hauthority, htail⟩
      have hdrop : dropUserinfo (userinfo ++ (host ++ text)) = host ++ text :=
        dropUserinfo_eq_iff.mpr ⟨userinfo, rfl, huserinfo, hat⟩
      obtain ⟨port, hsplit, hport⟩ := exists_port_iff.mpr ⟨text, rfl, htext⟩
      refine ⟨scheme, _, host, port, (splitScheme_eq_some_iff hscheme).mpr hclean, hscheme, ?_,
        hport, parseHost_eq_ip_iff.mpr hspells⟩
      rw [hhostport, hdrop, hsplit]

end Url
