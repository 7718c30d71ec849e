import SubmitSnap.Identity.Repository
import SubmitSnap.Text.Like

/-!
# Searching accounts

The listing of accounts takes a search term, escapes it and looks for it in the address with `LIKE`.
The address is lowered before it is matched and the term is not, so a search is case-insensitive
only in what the address is written in: a term with a capital letter finds nothing.

## The argument

Escaping and matching are inverse to each other: whatever characters the term has, the pattern
matches exactly the texts that contain the term as it stands. That is a fact about `LIKE` and is
proved where the pattern language is. What is left is case. The address is lowered and the term is
not, so a term that is not in lower case matches nothing, as every part of a lowered text is in
lower case itself. The condition is therefore on the term alone, but for terms that would have
found nothing anyway.

## Main results

* `userFilters_iff` — what the listing of a search shows.
* `passes_search_iff` — the terms a search finds what it should with.
* `not_passes_search` — a capital letter.
-/

namespace SubmitSnap

/-- Narrowing applied when listing accounts. `none` means "do not filter on this". -/
structure UserFilters where
  /-- A `LIKE` pattern, already escaped and wrapped in wildcards by `UserFilters.from_query`. -/
  search : Option String
  status : Option UserStatus
  role : Option RoleName

/-- `str::replace` of a single character. -/
def replace (s : String) (c : Char) (by_ : String) : String :=
  String.ofList (s.toList.flatMap fun x => if x == c then by_.toList else [x])

/-- Escapes the `LIKE` metacharacters in a term so it matches literally, then wraps it in wildcards
for a substring search. -/
def like_contains (term : String) : String :=
  let escaped := replace (replace (replace term '\\' "\\\\") '%' "\\%") '_' "\\_"
  "%" ++ escaped ++ "%"

/-- Builds filters from raw operator input. -/
def UserFilters.from_query (search : Option String) (status : Option UserStatus)
    (role : Option RoleName) : UserFilters where
  search := ((search.map trim).filter fun term => !term.isEmpty).map like_contains
  status := status
  role := role

/-- `$1::text IS NULL OR lower(email) LIKE $1`; `none` if the pattern is an error. -/
def UserFilters.passes_search (P : Platform) (filters : UserFilters) (email : String) :
    Option Bool :=
  match filters.search with
  | none => some true
  | some pattern => Like.like (P.lower email).toList pattern.toList

/-- Shared `WHERE` for the account listing queries. -/
def USER_FILTERS (P : Platform) (db : Database) (filters : UserFilters) (user : UserRecord) :
    Option Bool := do
  let found ← filters.passes_search P user.email
  return found && filters.status.all (user.status == ·) && filters.role.all (db.hasRole user.id)

/-- The search term is blank. -/
def Blank (term : String) : Prop := (trim term).isEmpty = true

/-- The address contains the text. -/
def Contains (email term : String) : Prop := term.toList <:+: email.toList

/-- `lower()` leaves alone what it has lowered. -/
def Platform.LowersOnce (P : Platform) : Prop :=
  ∀ c, ∀ c' ∈ P.to_lowercase c, P.to_lowercase c' = [c']

/-- The term is written in lower case. -/
def LowerCase (P : Platform) (term : String) : Prop := P.lower (trim term) = trim term

section Search

variable {P : Platform} {term email : String}

theorem toList_replace {s : String} {c : Char} {by_ : String} :
    (replace s c by_).toList = s.toList.flatMap fun x => if x == c then by_.toList else [x] := by
  rw [replace, String.toList_ofList]

/-- The three replacements do not get in each other's way: together they escape each character. -/
theorem toList_like_contains :
    (like_contains term).toList = ('%' :: Like.escape term.toList) ++ ['%'] := by
  have hescaped : (replace (replace (replace term '\\' "\\\\") '%' "\\%") '_' "\\_").toList =
      Like.escape term.toList := by
    rw [toList_replace, toList_replace, toList_replace, List.flatMap_assoc, List.flatMap_assoc]
    refine List.flatMap_congr fun c _ => ?_
    by_cases hbackslash : c = '\\'
    · subst hbackslash
      rfl
    by_cases hpercent : c = '%'
    · subst hpercent
      rfl
    by_cases hunderscore : c = '_'
    · subst hunderscore
      rfl
    simp [Like.escapeChar, hbackslash, hpercent, hunderscore]
  rw [like_contains, String.toList_append, String.toList_append, hescaped]
  rfl

/-- A search finds the addresses that contain the term as it is written. -/
theorem passes_search_eq {status : Option UserStatus} {role : Option RoleName} :
    (UserFilters.from_query (some term) status role).passes_search P email = some true ↔
      Blank term ∨ Contains (P.lower email) (trim term) := by
  unfold UserFilters.passes_search UserFilters.from_query Blank
  dsimp only
  cases hblank : (trim term).isEmpty with
  | true => simp [Option.filter, hblank]
  | false =>
    simp only [Option.map_some, Option.filter_some, hblank, Bool.not_false, if_true]
    rw [toList_like_contains, Like.like_contains_iff]
    exact (or_iff_right nofun).symm

/-- The listing of a search shows the accounts whose address has the term as it is written, if they
have the status and the role that were asked for. -/
theorem userFilters_iff {db : Database} {user : UserRecord} {status : Option UserStatus}
    {role : Option RoleName} :
    USER_FILTERS P db (UserFilters.from_query (some term) status role) user = some true ↔
      (Blank term ∨ Contains (P.lower user.email) (trim term)) ∧
        (∀ s ∈ status, user.status = s) ∧ ∀ r ∈ role, db.hasRole user.id r = true := by
  have hsearch : (UserFilters.from_query (some term) status role).passes_search P user.email =
      some true ↔ Blank term ∨ Contains (P.lower user.email) (trim term) := passes_search_eq
  have hstatus : status.all (user.status == ·) = true ↔ ∀ s ∈ status, user.status = s := by
    cases status <;> simp
  have hrole : role.all (db.hasRole user.id) = true ↔ ∀ r ∈ role, db.hasRole user.id r = true := by
    cases role <;> simp
  rw [← hsearch, ← hstatus, ← hrole, USER_FILTERS]
  cases (UserFilters.from_query (some term) status role).passes_search P user.email with
  | none => simp
  | some found => simp [UserFilters.from_query, Bool.and_eq_true, and_assoc]

theorem toList_lower : (P.lower term).toList = term.toList.flatMap P.to_lowercase := by
  rw [Platform.lower, String.toList_ofList]

/-- A lowered text is in lower case, character by character. -/
theorem lowered_of_mem (hlower : P.LowersOnce) {c : Char} (hc : c ∈ (P.lower term).toList) :
    P.to_lowercase c = [c] := by
  rw [toList_lower] at hc
  obtain ⟨c₀, -, hc⟩ := List.mem_flatMap.mp hc
  exact hlower c₀ c hc

/-- What a lowered text contains is in lower case. -/
theorem lower_eq_of_contains (hlower : P.LowersOnce) (h : Contains (P.lower email) term) :
    P.lower term = term := by
  have hchars : ∀ c ∈ term.toList, P.to_lowercase c = [c] := fun c hc =>
    lowered_of_mem hlower (h.subset hc)
  rw [Platform.lower, List.flatMap_congr hchars, List.flatMap_singleton', String.ofList_toList]

end Search

/-- **When a search finds what it should**: exactly when the term is blank or in lower case, or
there is nothing to find. -/
theorem passes_search_iff (P : Platform) (hlower : P.LowersOnce) (term email : String)
    (status : Option UserStatus) (role : Option RoleName) :
    ((UserFilters.from_query (some term) status role).passes_search P email = some true ↔
      Blank term ∨ Contains (P.lower email) (P.lower (trim term))) ↔
    Blank term ∨ LowerCase P term ∨ ¬ Contains (P.lower email) (P.lower (trim term)) := by
  rw [passes_search_eq]
  constructor
  · intro h
    by_cases hfound : Contains (P.lower email) (P.lower (trim term))
    · rcases h.mpr (.inr hfound) with hblank | hcontains
      · exact .inl hblank
      · exact .inr (.inl (lower_eq_of_contains hlower hcontains))
    · exact .inr (.inr hfound)
  · rintro (hblank | hcase | hnone)
    · exact iff_of_true (.inl hblank) (.inl hblank)
    · rw [show P.lower (trim term) = trim term from hcase]
    · refine or_congr_right (iff_of_false (fun hcontains => ?_) hnone)
      rw [lower_eq_of_contains hlower hcontains] at hnone
      exact hnone hcontains

instance (term : String) : Decidable (Blank term) :=
  inferInstanceAs (Decidable ((trim term).isEmpty = true))

instance (email term : String) : Decidable (Contains email term) :=
  inferInstanceAs (Decidable (term.toList <:+: email.toList))

/-- **A capital letter**: the address contains the term, and is not found. -/
theorem not_passes_search :
    ¬ ((UserFilters.from_query (some "Ann") none none).passes_search .sample "ann@example.org" =
        some true ↔
      Blank "Ann" ∨ Contains (Platform.sample.lower "ann@example.org")
        (Platform.sample.lower (trim "Ann"))) := by
  decide +kernel

theorem Platform.sample_lowersOnce : Platform.sample.LowersOnce := by
  intro c c' hc'
  obtain rfl : c' = c.toLower := List.mem_singleton.mp hc'
  change [c.toLower.toLower] = [c.toLower]
  by_cases hupper : c.val ≥ 'A'.val ∧ c.val ≤ 'Z'.val
  · -- A small letter is none that is lowered.
    have hlowered : ¬ (c.toLower.val ≥ 'A'.val ∧ c.toLower.val ≤ 'Z'.val) := by
      rw [Char.toLower, dif_pos hupper]
      simp only [ge_iff_le, UInt32.le_iff_toNat_le, UInt32.toNat_add] at hupper ⊢
      have hA : 'A'.val.toNat = 65 := rfl
      have hZ : 'Z'.val.toNat = 90 := rfl
      have hshift : ('a'.val - 'A'.val).toNat = 32 := rfl
      omega
    conv_lhs => rw [Char.toLower, dif_neg hlowered]
  · have hsame : c.toLower = c := by rw [Char.toLower, dif_neg hupper]
    rw [hsame, hsame]

/-- A term with metacharacters, in lower case. -/
theorem passes_search_underscore :
    (UserFilters.from_query (some " a_b\\%") none none).passes_search .sample
        "xa_b\\%@example.org" = some true ↔
      Blank " a_b\\%" ∨ Contains (Platform.sample.lower "xa_b\\%@example.org")
        (Platform.sample.lower (trim " a_b\\%")) :=
  (passes_search_iff .sample Platform.sample_lowersOnce _ _ none none).mpr (.inr (.inl (by rfl)))

end SubmitSnap
