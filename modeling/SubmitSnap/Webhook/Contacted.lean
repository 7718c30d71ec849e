import SubmitSnap.Webhook.Url
import SubmitSnap.Text.Url

/-!
# Which addresses a webhook can reach

An endpoint must not be a literal address of this machine or of its link. The check cuts the host
out of the address and reads it by the strict grammar of internet addresses; the client that makes
the request later cuts it out by the URL standard, and reads much more as an address.

## Main results

* `hostSafe_iff` — the check keeps a local address out unless it is disguised.
-/

namespace SubmitSnap

/-- `Ipv6Addr::to_ipv4_mapped`. -/
def to_ipv4_mapped (addr : Ip.V6) : Option Ip.V4 :=
  match addr.segments with
  | [0, 0, 0, 0, 0, 65535, high, low] =>
    some ⟨Fin.ofNat 256 (high / 256), Fin.ofNat 256 high, Fin.ofNat 256 (low / 256),
      Fin.ofNat 256 low⟩
  | _ => none

/-- A loopback, link-local or unspecified address, of either kind or IPv4 within IPv6. -/
def is_local : Ip.Addr → Bool
  | .v4 addr => is_forbidden_v4 addr
  | .v6 addr => is_forbidden_v6 addr || (to_ipv4_mapped addr).any is_forbidden_v4

/-- An accepted address does not make the client contact a local one. -/
def HostSafe (to_ascii : List UInt8 → Option (List Char)) (url : String) : Prop :=
  check_url url false = .ok () → ∀ addr,
    Url.contacts to_ascii (trim url).toList = some (.ip addr) → is_local addr = false

/-- What the URL standard takes for the host is the text of a local address, and what stands behind
the first slashes, up to the next one, is something else. -/
def Disguised (to_ascii : List UInt8 → Option (List Char)) (url : String) : Prop :=
  ∃ scheme rest host addr,
    (trim url).toList = scheme ++ "://".toList ++ rest ∧ Url.isWeb scheme = true ∧
    Url.Names (trim url).toList host ∧ Url.Spells to_ascii host addr ∧ is_local addr = true ∧
    host_of rest ≠ [] ∧
    ∀ seen, Ip.parse (trim_matches ['[', ']'] (host_of rest)) = some seen →
      is_forbidden_address seen = false

variable {to_ascii : List UInt8 → Option (List Char)} {url : String} {scheme rest : List Char}

theorem split_once_of_web (h : Url.isWeb scheme = true) :
    split_once "://".toList (scheme ++ "://".toList ++ rest) = some (scheme, rest) := by
  have hcolon : ∀ c ∈ scheme, c ≠ ':' := by
    rintro c hc rfl
    exact absurd (Url.isAlpha_of_isWeb h ':' hc) (by decide)
  clear h
  induction scheme with
  | nil => simp [split_once]
  | cons c scheme ih =>
    have hc : ':' ≠ c := (hcolon c (List.mem_cons_self ..)).symm
    have htail := ih fun c hc => hcolon c (List.mem_cons_of_mem _ hc)
    rw [List.cons_append, List.cons_append, split_once, if_neg (by simp [hc]), htail]
    rfl

theorem check_url_eq_ok_iff :
    check_url url false = .ok () ↔ ∃ scheme rest,
      (trim url).toList = scheme ++ "://".toList ++ rest ∧ Url.isWeb scheme = true ∧
      host_of rest ≠ [] ∧
      ∀ seen, Ip.parse (trim_matches ['[', ']'] (host_of rest)) = some seen →
        is_forbidden_address seen = false := by
  have hweb (scheme : List Char) : Url.isWeb scheme =
      (eq_ignore_ascii_case scheme "http".toList ||
        eq_ignore_ascii_case scheme "https".toList) := by
    simp [Url.isWeb, eq_ignore_ascii_case, beq_eq_decide]
  unfold check_url
  constructor
  · intro h
    split at h
    · cases h
    · next scheme rest hsplit =>
      split at h
      · cases h
      · next hscheme =>
        split at h
        · cases h
        · next hhost =>
          split at h
          · cases h
          · next hseen =>
            refine ⟨scheme, rest, eq_of_split_once hsplit, ?_, hhost, fun seen hparse => ?_⟩
            · rw [hweb]
              simpa [or_iff_not_imp_left] using hscheme
            · simpa [hparse] using hseen
  · rintro ⟨scheme, rest, hurl, hscheme, hhost, hseen⟩
    have hsplit : split_once [':', '/', '/'] (trim url).toList = some (scheme, rest) := by
      rw [hurl]
      exact split_once_of_web hscheme
    have hneither : ¬ (!eq_ignore_ascii_case scheme "http".toList &&
        !eq_ignore_ascii_case scheme "https".toList) = true := by
      rw [hweb] at hscheme
      simpa [or_iff_not_imp_left] using hscheme
    have hallowed : ¬ (!false &&
        (Ip.parse (trim_matches ['[', ']'] (host_of rest))).any is_forbidden_address) = true := by
      cases hparse : Ip.parse (trim_matches ['[', ']'] (host_of rest)) with
      | none => simp
      | some seen => simp [hseen seen hparse]
    simp only [hsplit]
    rw [if_neg hneither, if_neg hhost, if_neg hallowed]

/-- **The check keeps local addresses out exactly if they are not disguised.** -/
theorem hostSafe_iff : HostSafe to_ascii url ↔ ¬ Disguised to_ascii url := by
  constructor
  · rintro h ⟨scheme, rest, host, addr, hurl, hweb, hnames, hspells, hlocal, hhost, hseen⟩
    have hok := check_url_eq_ok_iff.mpr ⟨scheme, rest, hurl, hweb, hhost, hseen⟩
    have hcontacts := Url.contacts_eq_ip_iff.mpr ⟨host, hnames, hspells⟩
    rw [h hok addr hcontacts] at hlocal
    cases hlocal
  · intro h hok addr hcontacts
    obtain ⟨scheme, rest, hurl, hweb, hhost, hseen⟩ := check_url_eq_ok_iff.mp hok
    obtain ⟨host, hnames, hspells⟩ := Url.contacts_eq_ip_iff.mp hcontacts
    by_contra hlocal
    exact h ⟨scheme, rest, host, addr, hurl, hweb, hnames, hspells, by simpa using hlocal, hhost,
      hseen⟩

/-! ### Disguises -/

/-- What is documented of the mapping of names to ASCII: a name of letters, digits, hyphens and dots
keeps them, and has its letters small, unless one of its parts starts like an encoded one. -/
def IsToAscii (to_ascii : List UInt8 → Option (List Char)) : Prop :=
  ∀ name : List Char, name ≠ [] →
    (∀ c ∈ name, c.isAlphanum = true ∨ c = '-' ∨ c = '.') →
    (∀ label ∈ name.splitOn '.', (label.take 4).map Char.toLower ≠ "xn--".toList) →
    to_ascii (name.flatMap String.utf8EncodeChar) = some (name.map Char.toLower)

/-- The mapping of names that are in ASCII already. -/
def lower_ascii (name : List UInt8) : Option (List Char) :=
  if name.all (· < 128) then some (name.map fun b => (Char.ofNat b.toNat).toLower) else none

theorem isToAscii_lower_ascii : IsToAscii lower_ascii := by
  intro name _ hname _
  have hascii : ∀ c ∈ name, c.toNat < 128 := by
    intro c hc
    rcases hname c hc with halpha | rfl | rfl
    · simp only [Char.isAlphanum, Char.isAlpha, Char.isUpper, Char.isLower, Char.isDigit,
        Bool.or_eq_true, Bool.and_eq_true, decide_eq_true_eq, ge_iff_le, UInt32.le_iff_toNat_le]
        at halpha
      change (((65 ≤ c.toNat ∧ c.toNat ≤ 90) ∨ (97 ≤ c.toNat ∧ c.toNat ≤ 122)) ∨
        (48 ≤ c.toNat ∧ c.toNat ≤ 57)) at halpha
      omega
    · decide
    · decide
  have hencode : name.flatMap String.utf8EncodeChar = name.map fun c => UInt8.ofNat c.toNat := by
    rw [List.map_eq_flatMap]
    exact List.flatMap_congr fun c hc => Header.utf8EncodeChar_of_ascii (hascii c hc)
  have hall : (name.map fun c => UInt8.ofNat c.toNat).all (· < 128) = true := by
    rw [List.all_map, List.all_eq_true]
    intro c hc
    have hlt := hascii c hc
    simp only [Function.comp_apply, decide_eq_true_eq, UInt8.lt_iff_toNat_lt,
      Header.toNat_ofNat_of_ascii hlt]
    exact hlt
  rw [lower_ascii, hencode, if_pos hall, List.map_map]
  refine congrArg some (List.map_congr_left fun c hc => ?_)
  rw [Function.comp_apply, Header.toNat_ofNat_of_ascii (hascii c hc), Char.ofNat_toNat]

/-- The number 2852039166 is 169.254.169.254, where cloud instances have their credentials. -/
theorem not_hostSafe : ¬ ∀ to_ascii, IsToAscii to_ascii → ∀ url, HostSafe to_ascii url := by
  intro h
  have hcontacts : Url.contacts lower_ascii (trim "http://2852039166/latest/meta-data/").toList =
      some (.ip (.v4 ⟨169, 254, 169, 254⟩)) := by decide +kernel
  have hsafe := h lower_ascii isToAscii_lower_ascii "http://2852039166/latest/meta-data/"
    (by decide +kernel) _ hcontacts
  revert hsafe
  decide

/-- An IPv4 address within an IPv6 address. -/
example : ¬ HostSafe lower_ascii "http://[::ffff:127.0.0.1]/" := by
  intro h
  have hcontacts : Url.contacts lower_ascii (trim "http://[::ffff:127.0.0.1]/").toList =
      some (.ip (.v6 ⟨[0, 0, 0, 0, 0, 65535, 32512, 1], rfl⟩)) := by decide +kernel
  have hsafe := h (by decide +kernel) _ hcontacts
  revert hsafe
  decide

end SubmitSnap
