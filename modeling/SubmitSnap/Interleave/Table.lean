import Mathlib

/-!
# Keyed tables

A database table with a primary key, as a list of rows no two of which share their key. The order
of the list is the order of insertion, which is what a sequential scan without `ORDER BY` happens
to return and what no result below depends on.

The key discipline is a field of the structure, so a table that violates its primary key cannot be
built and no later invariant has to mention it. `insertNew` is `INSERT … ON CONFLICT DO NOTHING`;
a plain `INSERT` is a test for the key followed by `insertNew`.

## Main results

* `Table.eq_of_key_eq` — a key determines its row.
* `Table.find?_eq_some` — looking a key up is membership.
* `Table.mem_insertNew`, `Table.mem_updateWhere`, `Table.mem_deleteWhere` — what each write leaves.
-/

namespace Interleave

/-- A table of `ρ` rows with primary key `key`. -/
structure Table {κ ρ : Type} (key : ρ → κ) where
  /-- The rows, oldest first. -/
  rows : List ρ
  /-- No two rows share a key. -/
  nodup : (rows.map key).Nodup

namespace Table

variable {κ ρ : Type} {key : ρ → κ}

instance [DecidableEq ρ] : DecidableEq (Table key) := fun t u =>
  decidable_of_iff (t.rows = u.rows) ⟨fun h => by cases t; cases u; congr, fun h => by rw [h]⟩

/-- The table with no rows. -/
def empty : Table key := ⟨[], by simp⟩

@[simp] theorem rows_empty : (empty : Table key).rows = [] := rfl

theorem eq_of_key_eq (t : Table key) {r r' : ρ} (hr : r ∈ t.rows) (hr' : r' ∈ t.rows)
    (h : key r = key r') : r = r' :=
  List.inj_on_of_nodup_map t.nodup hr hr' h

/-- The rows satisfying `p` are replaced by their image under `f`, which may not touch the key. -/
def updateWhere (t : Table key) (p : ρ → Bool) (f : ρ → ρ) (hf : ∀ r, key (f r) = key r) :
    Table key where
  rows := t.rows.map fun r => if p r then f r else r
  nodup := by
    have hkey : (key ∘ fun r => if p r then f r else r) = key := by
      funext r
      by_cases hp : p r <;> simp [hp, hf]
    rw [List.map_map, hkey]
    exact t.nodup

@[simp] theorem mem_updateWhere {t : Table key} {p : ρ → Bool} {f : ρ → ρ}
    {hf : ∀ r, key (f r) = key r} {r' : ρ} :
    r' ∈ (t.updateWhere p f hf).rows ↔ ∃ r ∈ t.rows, (if p r then f r else r) = r' := by
  simp [updateWhere]

/-- Where a row of an updated table comes from. The hypothesis is membership in the rows of
`t.updateWhere p f hf`, spelled out so that unification does not have to find `hf`. -/
theorem of_mem_updateWhere {t : Table key} {p : ρ → Bool} {f : ρ → ρ} {r' : ρ}
    (h : r' ∈ t.rows.map fun r => if p r then f r else r) :
    ∃ r ∈ t.rows, (p r = true ∧ r' = f r) ∨ (p r = false ∧ r' = r) := by
  obtain ⟨r, hr, rfl⟩ := List.mem_map.mp h
  refine ⟨r, hr, ?_⟩
  cases hp : p r <;> simp

theorem ext {t u : Table key} (h : t.rows = u.rows) : t = u := by
  cases t
  cases u
  congr

/-- An update that changes no row it selects changes nothing. -/
theorem updateWhere_eq_self {t : Table key} {p : ρ → Bool} {f : ρ → ρ}
    {hf : ∀ r, key (f r) = key r} (h : ∀ r ∈ t.rows, p r = true → f r = r) :
    t.updateWhere p f hf = t := by
  have hrows : (t.rows.map fun r => if p r then f r else r) = t.rows.map id := by
    refine List.map_congr_left fun r hr => ?_
    by_cases hp : p r = true
    · rw [if_pos hp, h r hr hp]
      rfl
    · exact if_neg hp
  exact ext (hrows.trans t.rows.map_id)

/-- A row an update does not select survives it. -/
theorem mem_updateWhere_of_not {t : Table key} {p : ρ → Bool} {f : ρ → ρ}
    {hf : ∀ r, key (f r) = key r} {r : ρ} (hr : r ∈ t.rows) (hp : p r = false) :
    r ∈ (t.updateWhere p f hf).rows :=
  mem_updateWhere.mpr ⟨r, hr, by simp [hp]⟩

/-- The rows satisfying `p` are gone. -/
def deleteWhere (t : Table key) (p : ρ → Bool) : Table key where
  rows := t.rows.filter fun r => !p r
  nodup := (List.filter_sublist.map key).nodup t.nodup

@[simp] theorem mem_deleteWhere {t : Table key} {p : ρ → Bool} {r : ρ} :
    r ∈ (t.deleteWhere p).rows ↔ r ∈ t.rows ∧ p r = false := by
  simp [deleteWhere]

variable [DecidableEq κ]

/-- The row with key `k`. -/
def find? (t : Table key) (k : κ) : Option ρ := t.rows.find? fun r => key r = k

theorem find?_eq_none {t : Table key} {k : κ} :
    t.find? k = none ↔ ∀ r ∈ t.rows, key r ≠ k := by
  simp [find?]

theorem find?_eq_some {t : Table key} {k : κ} {r : ρ} :
    t.find? k = some r ↔ r ∈ t.rows ∧ key r = k := by
  have hsound : ∀ r', t.find? k = some r' → r' ∈ t.rows ∧ key r' = k := fun r' h =>
    ⟨List.mem_of_find?_eq_some h, by simpa using List.find?_some h⟩
  refine ⟨hsound r, fun ⟨hr, hk⟩ => ?_⟩
  cases hf : t.find? k with
  | none => exact absurd hk (find?_eq_none.mp hf r hr)
  | some r' =>
    obtain ⟨hr', hk'⟩ := hsound r' hf
    rw [t.eq_of_key_eq hr' hr (hk'.trans hk.symm)]

/-- Whether some row has key `k`. -/
def hasKey (t : Table key) (k : κ) : Bool := t.rows.any fun r => key r = k

theorem hasKey_iff {t : Table key} {k : κ} : t.hasKey k = true ↔ ∃ r ∈ t.rows, key r = k := by
  simp [hasKey]

theorem hasKey_eq_false {t : Table key} {k : κ} :
    t.hasKey k = false ↔ ∀ r ∈ t.rows, key r ≠ k := by
  simp [hasKey]

/-- An update keeps the keys. -/
theorem hasKey_updateWhere {t : Table key} {p : ρ → Bool} {f : ρ → ρ} {k : κ}
    (hf : ∀ r, key (f r) = key r) : (t.updateWhere p f hf).hasKey k = t.hasKey k := by
  unfold hasKey updateWhere
  rw [List.any_map]
  refine congrArg (List.any t.rows) (funext fun r => ?_)
  by_cases hp : p r <;> simp [hp, hf]

/-- `INSERT … ON CONFLICT DO NOTHING`. -/
def insertNew (t : Table key) (r : ρ) : Table key :=
  if h : t.hasKey (key r) then t
  else ⟨t.rows ++ [r], by
    rw [Bool.not_eq_true, hasKey_eq_false] at h
    rw [List.map_append, List.nodup_append']
    exact ⟨t.nodup, by simp, by simpa using h⟩⟩

theorem insertNew_of_hasKey {t : Table key} {r : ρ} (h : t.hasKey (key r) = true) :
    t.insertNew r = t := by
  simp [insertNew, h]

theorem rows_insertNew_of_not {t : Table key} {r : ρ} (h : t.hasKey (key r) = false) :
    (t.insertNew r).rows = t.rows ++ [r] := by
  simp [insertNew, h]

@[simp] theorem mem_insertNew {t : Table key} {r r' : ρ} :
    r' ∈ (t.insertNew r).rows ↔ r' ∈ t.rows ∨ (r' = r ∧ t.hasKey (key r) = false) := by
  cases h : t.hasKey (key r) with
  | true => simp [insertNew_of_hasKey h]
  | false => simp [rows_insertNew_of_not h]

theorem mem_insertNew_of_mem {t : Table key} {r r' : ρ} (h : r' ∈ t.rows) :
    r' ∈ (t.insertNew r).rows :=
  mem_insertNew.mpr (.inl h)

theorem hasKey_insertNew {t : Table key} {r : ρ} {k : κ} :
    (t.insertNew r).hasKey k = true ↔ t.hasKey k = true ∨ k = key r := by
  simp only [hasKey_iff, mem_insertNew]
  constructor
  · rintro ⟨r', hr' | ⟨rfl, -⟩, rfl⟩
    · exact .inl ⟨r', hr', rfl⟩
    · exact .inr rfl
  · rintro (⟨r', hr', rfl⟩ | rfl)
    · exact ⟨r', .inl hr', rfl⟩
    · cases h : t.hasKey (key r) with
      | true =>
        obtain ⟨r', hr', hkey⟩ := hasKey_iff.mp h
        exact ⟨r', .inl hr', hkey⟩
      | false => exact ⟨r, .inr ⟨rfl, rfl⟩, rfl⟩

/-- After an insert the key is there, whoever put it there. -/
theorem hasKey_insertNew_self (t : Table key) (r : ρ) :
    (t.insertNew r).hasKey (key r) = true := by
  cases h : t.hasKey (key r) with
  | true => rw [insertNew_of_hasKey h]; exact h
  | false => exact hasKey_iff.mpr ⟨r, by simp [h], rfl⟩

/-! ### What a selection does not see

The rows that `sel` selects stay what they are, and in their order, as long as a write does not
touch them. -/

section Selection

variable {t : Table key} {p sel : ρ → Bool} {f : ρ → ρ} {r : ρ}

omit [DecidableEq κ] in
/-- The rows of `t.updateWhere p f hf` are spelled out so that unification does not have to find
`hf`. -/
theorem filter_updateWhere (h : ∀ r ∈ t.rows, p r = true → sel r = false ∧ sel (f r) = false) :
    (t.rows.map fun r => if p r then f r else r).filter sel = t.rows.filter sel := by
  have hsel : ∀ r ∈ t.rows, sel (if p r then f r else r) = sel r := by
    intro r hr
    cases hp : p r with
    | false => simp
    | true => simp [h r hr hp]
  have hkept : ∀ r ∈ t.rows, sel r = true → (if p r then f r else r) = r := by
    intro r hr hr'
    refine if_neg fun hp => ?_
    rw [(h r hr hp).1] at hr'
    cases hr'
  have hfilter : t.rows.filter (sel ∘ fun r => if p r then f r else r) = t.rows.filter sel :=
    List.filter_congr hsel
  rw [List.filter_map, hfilter]
  refine (List.map_congr_left fun r hr => ?_).trans (List.map_id _)
  exact hkept r (List.mem_of_mem_filter hr) (List.mem_filter.mp hr).2

omit [DecidableEq κ] in
theorem filter_deleteWhere (h : ∀ r ∈ t.rows, p r = true → sel r = false) :
    (t.deleteWhere p).rows.filter sel = t.rows.filter sel := by
  rw [deleteWhere, List.filter_filter]
  refine List.filter_congr fun r hr => ?_
  cases hp : p r with
  | false => simp
  | true => simp [h r hr hp]

theorem filter_insertNew (h : sel r = false) :
    (t.insertNew r).rows.filter sel = t.rows.filter sel := by
  cases hkey : t.hasKey (key r) with
  | true => rw [insertNew_of_hasKey hkey]
  | false => simp [rows_insertNew_of_not hkey, h]

end Selection

end Table

end Interleave
