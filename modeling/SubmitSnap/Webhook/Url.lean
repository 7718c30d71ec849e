import SubmitSnap.Organization.Service
import SubmitSnap.Text.Ip

/-!
# The address of a webhook endpoint

The host is checked as written, not as resolved.
-/

namespace SubmitSnap

open Interleave

inductive WebhookError where
  | endpoint_not_found
  | delivery_not_found
  | forbidden
  | invalid (message : String)
  | internal (cause : Failure)
  deriving DecidableEq, Repr

instance : Raises Failure WebhookError := ⟨.internal⟩

def WebhookError.ofOrganization : OrganizationError → WebhookError
  | .not_found | .account_not_found | .member_not_found => .endpoint_not_found
  | .not_a_member | .insufficient_role => .forbidden
  | .last_owner => .internal .unavailable
  | .internal cause => .internal cause

/-- `str::split_once`: what stands before and after the first `pat`. -/
def split_once (pat : List Char) : List Char → Option (List Char × List Char)
  | [] => if pat = [] then some ([], []) else none
  | c :: s =>
    if pat.isPrefixOf (c :: s) then some ([], (c :: s).drop pat.length)
    else (split_once pat s).map fun (before, after) => (c :: before, after)

theorem eq_of_split_once {pat s before after : List Char}
    (h : split_once pat s = some (before, after)) : s = before ++ pat ++ after := by
  induction s generalizing before with
  | nil =>
    simp only [split_once] at h
    split at h <;> cases h
    subst_vars
    rfl
  | cons c s ih =>
    simp only [split_once] at h
    split at h
    · next hpat =>
      cases h
      obtain ⟨t, ht⟩ := List.isPrefixOf_iff_prefix.mp hpat
      rw [← ht, List.drop_left]
      rfl
    · obtain ⟨⟨before', after'⟩, hsplit, heq⟩ := Option.map_eq_some_iff.mp h
      cases heq
      rw [ih hsplit]
      rfl

/-- `str::eq_ignore_ascii_case`. -/
def eq_ignore_ascii_case (s t : List Char) : Bool := s.map Char.toLower == t.map Char.toLower

/-- `str::trim_matches` for a set of characters. -/
def trim_matches (cs s : List Char) : List Char :=
  ((s.dropWhile (cs.contains ·)).reverse.dropWhile (cs.contains ·)).reverse

/-- What stands before the first of the given characters. -/
def until_any (cs s : List Char) : List Char := s.takeWhile fun c => !cs.contains c

/-- What stands behind the last `c`. -/
def after_last (c : Char) (s : List Char) : List Char := (s.reverse.takeWhile (· != c)).reverse

def host_of (rest : List Char) : List Char :=
  let authority := until_any ['/', '?', '#'] rest
  let after_userinfo := after_last '@' authority
  -- A bracketed IPv6 host keeps its brackets so a trailing port can be told apart.
  if after_userinfo.head? = some '[' then
    if after_userinfo.contains ']' then until_any [']'] after_userinfo ++ [']'] else after_userinfo
  else until_any [':'] after_userinfo

/-- `Ipv4Addr::is_loopback`, `is_link_local` and `is_unspecified`. -/
def is_forbidden_v4 (addr : Ip.V4) : Bool :=
  addr.a = 127 || (addr.a = 169 && addr.b = 254) ||
    (addr.a = 0 && addr.b = 0 && addr.c = 0 && addr.d = 0)

/-- `Ipv6Addr::is_loopback`, `is_unspecified`, and the link-local range. -/
def is_forbidden_v6 (addr : Ip.V6) : Bool :=
  addr.segments = [0, 0, 0, 0, 0, 0, 0, 1] || addr.segments = List.replicate 8 0 ||
    addr.segments.head?.any fun segment => segment.val &&& 0xffc0 = 0xfe80

def is_forbidden_address : Ip.Addr → Bool
  | .v4 addr => is_forbidden_v4 addr
  | .v6 addr => is_forbidden_v6 addr

/-- What is wrong with the address of an endpoint, if anything is. -/
@[irreducible] def check_url (url : String) (allow_private : Bool) : Except WebhookError Unit :=
  match split_once [':', '/', '/'] (trim url).toList with
  | none => .error (.invalid "url must be an absolute http or https address")
  | some (scheme, rest) =>
    if !eq_ignore_ascii_case scheme "http".toList &&
      !eq_ignore_ascii_case scheme "https".toList then
      .error (.invalid "url must be an http or https address")
    else if host_of rest = [] then .error (.invalid "url must name a host")
    else if !allow_private &&
        (Ip.parse (trim_matches ['[', ']'] (host_of rest))).any is_forbidden_address then
      .error (.invalid "url must not point at a loopback or link-local address")
    else .ok ()

end SubmitSnap
