import SubmitSnap.Webhook.Model
import SubmitSnap.Form.Answers
import SubmitSnap.Form.Payload
import SubmitSnap.Form.Submittable

/-!
# The answers of a notification

A notification shows what was submitted, in the order in which the form asks for it now. The form
may have changed since: a question may be new, and a key may no longer be on the form.

## The argument

The two parts of the list have no key in common, since the second one is what the first one
leaves. No key occurs twice in the first because the fields of a checked form have distinct keys,
and none in the second because the keys of the data are distinct. Sorting changes neither.

## Main results

* `answersShown` — every key of the data appears exactly once: first the declared keys in the order
  of their declaration and under their labels, then the others in ascending order.
-/

namespace SubmitSnap

/-- The answers in the order the form declares them, then the keys that are no longer on it. -/
def answers (source : NotificationSource) : List (String × Value) :=
  let ordered := source.schema.fields.filterMap fun field =>
    (source.data.get field.key).map fun value => (field.label, value)
  let remaining := source.data.filter fun entry => (source.schema.field entry.1).isNone
  ordered ++ remaining.insertionSort fun left right => left.1 ≤ right.1

/-- What stands before the answer of a key: the label of its field, if there is one. -/
def FormSchema.label (schema : FormSchema) (key : String) : String :=
  ((schema.field key).map (·.label)).getD key

/-- The answer shows the value stored under the key, under the label of the key. -/
def NotificationSource.Shows (source : NotificationSource) (key : String)
    (answer : String × Value) : Prop :=
  answer.1 = source.schema.label key ∧ source.data.get key = some answer.2

/-- The answers show every key of the data exactly once, the declared ones first. -/
structure NotificationSource.ShowsAll (source : NotificationSource)
    (declared undeclared : List String) : Prop where
  once : (declared ++ undeclared).Perm source.data.keys
  ordered : declared.Sublist (source.schema.fields.map (·.key))
  gone : ∀ key ∈ undeclared, key ∉ source.schema.fields.map (·.key)
  ascending : undeclared.Pairwise (· < ·)
  shown : List.Forall₂ source.Shows (declared ++ undeclared) (answers source)

variable {source : NotificationSource} {schema : FormSchema} {m : Map} {key : String} {v : Value}

theorem mem_keys_iff : key ∈ m.keys ↔ ∃ v, m.get key = some v := by
  refine ⟨get_of_mem_keys, fun ⟨v, hv⟩ => ?_⟩
  exact List.mem_map_of_mem (f := Prod.fst) (mem_of_get hv)

theorem field_eq_none_iff : schema.field key = none ↔ key ∉ schema.fields.map (·.key) := by
  unfold FormSchema.field
  rw [List.find?_eq_none, List.mem_map]
  constructor
  · rintro h ⟨field, hfield, hkey⟩
    exact h field hfield (beq_iff_eq.mpr hkey)
  · intro h field hfield hkey
    exact h ⟨field, hfield, beq_iff_eq.mp hkey⟩

/-- The declared keys that have an answer. -/
def NotificationSource.declared (source : NotificationSource) : List String :=
  (source.schema.fields.map (·.key)).filter fun key => (source.data.get key).isSome

/-- The keys that are no longer on the form. -/
def NotificationSource.undeclared (source : NotificationSource) : List String :=
  (source.data.filter fun entry => (source.schema.field entry.1).isNone).insertionSort
    (fun left right => left.1 ≤ right.1) |>.map Prod.fst

theorem mem_declared :
    key ∈ source.declared ↔ key ∈ source.schema.fields.map (·.key) ∧ key ∈ source.data.keys := by
  rw [NotificationSource.declared, List.mem_filter, mem_keys_iff, Option.isSome_iff_exists]

theorem mem_undeclared :
    key ∈ source.undeclared ↔
      key ∉ source.schema.fields.map (·.key) ∧ key ∈ source.data.keys := by
  rw [NotificationSource.undeclared, Map.keys, ← field_eq_none_iff, List.mem_map, List.mem_map]
  constructor
  · rintro ⟨entry, hentry, rfl⟩
    obtain ⟨hdata, hnone⟩ := List.mem_filter.mp ((List.mem_insertionSort _).mp hentry)
    exact ⟨Option.isNone_iff_eq_none.mp hnone, entry, hdata, rfl⟩
  · rintro ⟨hnone, entry, hdata, rfl⟩
    refine ⟨entry, (List.mem_insertionSort _).mpr (List.mem_filter.mpr ⟨hdata, ?_⟩), rfl⟩
    exact Option.isNone_iff_eq_none.mpr hnone

theorem nodup_declared (hfields : (source.schema.fields.map (·.key)).Nodup) :
    source.declared.Nodup :=
  hfields.filter _

theorem nodup_undeclared (hdata : source.data.keys.Nodup) : source.undeclared.Nodup :=
  ((List.perm_insertionSort _ _).map Prod.fst).nodup_iff.mpr
    (hdata.sublist (List.filter_sublist.map Prod.fst))

theorem undeclared_ascending (hdata : source.data.keys.Nodup) :
    source.undeclared.Pairwise (· < ·) := by
  have hsorted : source.undeclared.Pairwise (· ≤ ·) := by
    have : Std.Total fun left right : String × Value => left.1 ≤ right.1 :=
      ⟨fun _ _ => le_total _ _⟩
    have : IsTrans (String × Value) fun left right => left.1 ≤ right.1 := ⟨fun _ _ _ => le_trans⟩
    exact List.pairwise_map.mpr (List.pairwise_insertionSort _ _)
  exact (hsorted.and (nodup_undeclared hdata)).imp fun h => lt_of_le_of_ne h.1 h.2

/-- Two filters over two collections, and together they cover the data. -/
theorem declared_append_undeclared (hfields : (source.schema.fields.map (·.key)).Nodup)
    (hdata : source.data.keys.Nodup) :
    (source.declared ++ source.undeclared).Perm source.data.keys := by
  have hdisjoint : source.declared.Disjoint source.undeclared := fun key hkey hkey' =>
    (mem_undeclared.mp hkey').1 (mem_declared.mp hkey).1
  have hnodup : (source.declared ++ source.undeclared).Nodup :=
    (nodup_declared hfields).append (nodup_undeclared hdata) hdisjoint
  refine (List.perm_ext_iff_of_nodup hnodup hdata).mpr fun key => ?_
  rw [List.mem_append, mem_declared, mem_undeclared, ← or_and_right]
  exact and_iff_right (em _)

/-- The declared keys line up with the first part of the answers. -/
theorem shows_declared {fields : List FieldDefinition}
    (h : ∀ field ∈ fields, source.schema.field field.key = some field) :
    List.Forall₂ source.Shows
      ((fields.map (·.key)).filter fun key => (source.data.get key).isSome)
      (fields.filterMap fun field =>
        (source.data.get field.key).map fun value => (field.label, value)) := by
  induction fields with
  | nil => exact .nil
  | cons field fields ih =>
    obtain ⟨hfield, hfields⟩ := List.forall_mem_cons.mp h
    rw [List.map_cons, List.filter_cons, List.filterMap_cons]
    cases hget : source.data.get field.key with
    | none => exact ih hfields
    | some value =>
      refine .cons ⟨?_, hget⟩ (ih hfields)
      rw [FormSchema.label, hfield]
      rfl

/-- The other keys line up with the second. -/
theorem shows_undeclared (hdata : source.data.keys.Nodup) :
    List.Forall₂ source.Shows source.undeclared
      ((source.data.filter fun entry => (source.schema.field entry.1).isNone).insertionSort
        fun left right => left.1 ≤ right.1) := by
  refine List.forall₂_map_left_iff.mpr (List.forall₂_same.mpr fun entry hentry => ?_)
  obtain ⟨hmem, hnone⟩ := List.mem_filter.mp ((List.mem_insertionSort _).mp hentry)
  refine ⟨?_, get_of_mem hdata hmem⟩
  rw [FormSchema.label, Option.isNone_iff_eq_none.mp hnone]
  rfl

/-- **Nothing that was submitted is left out of a notification, and nothing appears twice.** The
schema is the form's current one, the data may have been written against any earlier one. -/
theorem answersShown (source : NotificationSource)
    (hfields : (source.schema.fields.map (·.key)).Nodup) (hdata : source.data.keys.Nodup) :
    ∃ declared undeclared, source.ShowsAll declared undeclared := by
  refine ⟨source.declared, source.undeclared, ?_⟩
  have hfield : ∀ field ∈ source.schema.fields, source.schema.field field.key = some field :=
    fun field hmem => field_of_mem hfields hmem
  exact {
    once := declared_append_undeclared hfields hdata
    ordered := List.filter_sublist
    gone := fun key hkey => (mem_undeclared.mp hkey).1
    ascending := undeclared_ascending hdata
    shown := List.rel_append (shows_declared hfield) (shows_undeclared hdata) }

/-- A form that asks for an email address and a message. -/
def contactSchema : FormSchema where
  title := "Contact"
  description := none
  submit_label := none
  fields := [
    ⟨"message", .textarea, "Message", false, none, none, none, none, none, none, none, none, none⟩,
    ⟨"email", .email, "Email address", true, none, none, none, none, none, none, none, none, none⟩]

/-- An answer of the time when the form still asked for a referrer, and not yet for a message. -/
def driftedSource : NotificationSource where
  organization_id := 0
  form_id := 1
  form_name := "Contact"
  schema := contactSchema
  notify_emails := ["ada@example.com"]
  submission_id := 2
  data := [("email", .string "bob@example.com"), ("campaign", .null), ("referrer", .bool true)]
  status := .unread
  created_at := 0

theorem answersShown_drifted :
    (answers driftedSource).map Prod.fst = ["Email address", "campaign", "referrer"] ∧
      ∃ declared undeclared, driftedSource.ShowsAll declared undeclared :=
  ⟨by decide +kernel, answersShown driftedSource (by decide) (by decide)⟩

end SubmitSnap
