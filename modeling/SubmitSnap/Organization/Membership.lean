import SubmitSnap.Footprints
import SubmitSnap.Interleave.Fresh

/-!
# Membership changes under the organization's lock

Every change of a membership is a transaction that locks the organization before it reads and keeps
the lock until it commits, so what it has read of the organization's members still stands when it
writes. Three kinds of statement change memberships: such a commit, the deletion of the
organization, which has to wait for the lock, and the deletion of an account, which does not: its
cascade removes the rows of members and asks for no lock on their organizations.

The logic below records what a request that holds the lock may count on. It is stated for any
regime, and what it promises is weaker once accounts are deleted. Where organizations and accounts
neither come nor go, it promises more: `turnover` says whether they do.

## What the lock protects

While `p` holds the organization, nobody else commits a change to its members, for their own lock
on it was not granted; and nobody deletes it. What is left is the deletion of an account. It takes
members away from any organization, it never adds one and never changes a role. So the rely has
two parts. The first always holds: whoever is a member now was one when `p` looked, in the same
role (`none_new`). The second holds as long as no account has been deleted since: the members are
what they were (`none_gone`).

Everything a membership change has read is used in this form. The caller's standing, read first,
is still what it was or the caller is gone. The role of the account that is changed is what it
was, or there is nothing left to change. The number of other owners is the delicate one: it may
have gone down. `Guarded` records how far it can be trusted, which is exactly until the next
deletion, and the module on owners shows that this is not far enough.

## The identifiers of new organizations

A commit that creates an organization inserts two rows, and nothing locks an organization that is
not there yet. What keeps somebody else's change away from it is that nobody can know its
identifier. That is a discipline of names: the identifier is given when the row is inserted, used
by the commit of the same process, and not taken before. `MemberInv` carries it next to the
exclusion of locks.

## Main definitions

* `MembershipStep` — what one statement does to the organizations and their members.
* `HoldsOrganization`, `MemberRely` — the lock, and what it protects.
* `MayChange` — what is known when a membership is written.
* `memberLogic` — the logic.

## Main results

* `wp_add_member`, `wp_set_member_role`, `wp_remove_member`, `wp_create_organization` — each
  membership change keeps to it.
-/

namespace SubmitSnap

open Interleave
open Interleave.Script (ret when mapError)

/-! ### Members -/

namespace Database

variable (db : Database)

/-- The role of an account in an organization; this is what `role_of` answers. -/
def role_in (organization_id user_id : Uuid) : Option OrganizationRole :=
  (db.organization_members.find? (organization_id, user_id)).map (·.role)

variable {db} {db' : Database} {o u : Uuid} {role : OrganizationRole}

theorem role_in_eq_some : db.role_in o u = some role ↔
    ∃ m ∈ db.organization_members.rows, m.organization_id = o ∧ m.user_id = u ∧ m.role = role := by
  unfold role_in
  constructor
  · intro h
    obtain ⟨m, hfind, hrole⟩ := Option.map_eq_some_iff.mp h
    obtain ⟨hm, hkey⟩ := Table.find?_eq_some.mp hfind
    obtain ⟨horganization, huser⟩ := Prod.mk.inj hkey
    exact ⟨m, hm, horganization, huser, hrole⟩
  · rintro ⟨m, hm, rfl, rfl, rfl⟩
    have hfind : db.organization_members.find? (m.organization_id, m.user_id) = some m :=
      Table.find?_eq_some.mpr ⟨hm, rfl⟩
    rw [hfind]
    rfl

theorem role_in_congr (h : db'.organization_members = db.organization_members) :
    db'.role_in o u = db.role_in o u := by
  rw [role_in, role_in, h]

/-- Rows that are deleted by organization and account. -/
theorem role_in_deleteWhere {sel : OrganizationMember → Bool} (gone : Uuid → Uuid → Bool)
    (h : db'.organization_members = db.organization_members.deleteWhere sel)
    (hsel : ∀ m, sel m = gone m.organization_id m.user_id) :
    db'.role_in o u = if gone o u then none else db.role_in o u := by
  refine Option.ext fun role => ?_
  rw [role_in_eq_some, h]
  constructor
  · rintro ⟨m, hm, rfl, rfl, rfl⟩
    obtain ⟨hm, hkept⟩ := Table.mem_deleteWhere.mp hm
    rw [hsel] at hkept
    rw [hkept, if_neg Bool.false_ne_true]
    exact role_in_eq_some.mpr ⟨m, hm, rfl, rfl, rfl⟩
  · intro hrole
    cases hgone : gone o u with
    | true =>
      rw [hgone, if_pos rfl] at hrole
      cases hrole
    | false =>
      rw [hgone, if_neg Bool.false_ne_true] at hrole
      obtain ⟨m, hm, rfl, rfl, rfl⟩ := role_in_eq_some.mp hrole
      exact ⟨m, Table.mem_deleteWhere.mpr ⟨hm, (hsel m).trans hgone⟩, rfl, rfl, rfl⟩

/-- The upsert of a membership. -/
theorem role_in_upsert {row : OrganizationMember} :
    ((Write.organization_member row).apply db).role_in o u =
      if row.organization_id = o ∧ row.user_id = u then some row.role else db.role_in o u := by
  have hcases : ∀ m : OrganizationMember,
      m ∈ ((Write.organization_member row).apply db).organization_members.rows →
        (m.key = row.key ∧ m.role = row.role) ∨
          (m.key ≠ row.key ∧ m ∈ db.organization_members.rows) := by
    intro m hm
    rcases Table.mem_insertNew.mp hm with hm | ⟨rfl, -⟩
    · obtain ⟨m', hm', ⟨hsel, rfl⟩ | ⟨hsel, rfl⟩⟩ := Table.of_mem_updateWhere hm
      · exact .inl ⟨beq_iff_eq.mp hsel, rfl⟩
      · exact .inr ⟨by simpa using hsel, hm'⟩
    · exact .inl ⟨rfl, rfl⟩
  split
  · next hkey =>
    obtain ⟨rfl, rfl⟩ := hkey
    have hthere := Table.hasKey_insertNew_self
      (db.organization_members.updateWhere (fun m => m.key == row.key)
        (fun m => { m with role := row.role }) fun _ => rfl) row
    obtain ⟨m, hm, hmkey⟩ := Table.hasKey_iff.mp hthere
    rcases hcases m hm with ⟨-, hrole⟩ | ⟨hne, -⟩
    · exact role_in_eq_some.mpr ⟨m, hm, (Prod.mk.inj hmkey).1, (Prod.mk.inj hmkey).2, hrole⟩
    · exact absurd hmkey hne
  · next hkey =>
    have hne : ∀ m : OrganizationMember, m.organization_id = o → m.user_id = u →
        m.key ≠ row.key := by
      rintro m rfl rfl heq
      exact hkey ⟨(Prod.mk.inj heq).1.symm, (Prod.mk.inj heq).2.symm⟩
    refine Option.ext fun role => ?_
    rw [role_in_eq_some, role_in_eq_some]
    refine exists_congr fun m => ⟨?_, ?_⟩
    · rintro ⟨hm, ho, hu, hrole⟩
      rcases hcases m hm with ⟨heq, -⟩ | ⟨-, hm⟩
      · exact absurd heq (hne m ho hu)
      · exact ⟨hm, ho, hu, hrole⟩
    · rintro ⟨hm, ho, hu, hrole⟩
      refine ⟨Table.mem_insertNew_of_mem (Table.mem_updateWhere_of_not hm ?_), ho, hu, hrole⟩
      exact beq_eq_false_iff_ne.mpr (hne m ho hu)

/-- The removal of a membership. -/
theorem role_in_remove {o' u' : Uuid} : ((Write.remove_member o' u').apply db).role_in o u =
    if o' = o ∧ u' = u then none else db.role_in o u := by
  have heq : ((Write.remove_member o' u').apply db).role_in o u =
      if (o == o' && u == u') = true then none else db.role_in o u :=
    role_in_deleteWhere (fun o u => o == o' && u == u') rfl fun _ => rfl
  rw [heq]
  refine if_congr ?_ rfl rfl
  rw [Bool.and_eq_true, beq_iff_eq, beq_iff_eq, eq_comm, @eq_comm _ u u']

theorem mem_owners {m : OrganizationMember} : m ∈ db.owners o ↔
    m ∈ db.organization_members.rows ∧ m.organization_id = o ∧ m.role = .owner := by
  simp [owners]

variable (db) in
/-- Somebody other than the account owns the organization. -/
def OtherOwner (organization_id user_id : Uuid) : Prop :=
  ∃ m ∈ db.owners organization_id, m.user_id ≠ user_id

instance : Decidable (db.OtherOwner o u) := inferInstanceAs (Decidable (∃ m ∈ db.owners o, _))

theorem otherOwner_iff : db.OtherOwner o u ↔ ∃ v, v ≠ u ∧ db.role_in o v = some .owner := by
  constructor
  · rintro ⟨m, hm, hne⟩
    obtain ⟨hm, ho, hrole⟩ := mem_owners.mp hm
    exact ⟨m.user_id, hne, role_in_eq_some.mpr ⟨m, hm, ho, rfl, hrole⟩⟩
  · rintro ⟨v, hne, hv⟩
    obtain ⟨m, hm, ho, rfl, hrole⟩ := role_in_eq_some.mp hv
    exact ⟨m, mem_owners.mpr ⟨hm, ho, hrole⟩, hne⟩

/-- Of two owners one is somebody else. -/
theorem otherOwner_of_two (h : 2 ≤ (db.owners o).length) : db.OtherOwner o u := by
  by_contra hnone
  have huser : ∀ m ∈ db.owners o, m.key = (o, u) := by
    intro m hm
    have hmu : m.user_id = u := by
      by_contra hne
      exact hnone ⟨m, hm, hne⟩
    rw [OrganizationMember.key, (mem_owners.mp hm).2.1, hmu]
  have hnodup : (db.owners o).Nodup :=
    (List.Nodup.of_map _ db.organization_members.nodup).filter _
  match howners : db.owners o, h with
  | a :: b :: _, _ =>
    rw [howners] at huser hnodup
    have hmem : ∀ m ∈ a :: b :: _, m ∈ db.organization_members.rows := fun m hm =>
      (mem_owners.mp (howners ▸ hm)).1
    have hab : a = b := db.organization_members.eq_of_key_eq (hmem a (by simp)) (hmem b (by simp))
      ((huser a (by simp)).trans (huser b (by simp)).symm)
    exact (List.nodup_cons.mp hnodup).1 (hab ▸ List.mem_cons_self)

/-- The trigger complains about the organizations of which the account is the only owner. -/
theorem orphaned_eq_nil : db.orphaned u = [] ↔ ∀ org ∈ db.organizations.rows,
    db.role_in org.id u = some .owner → db.OtherOwner org.id u := by
  unfold orphaned
  rw [List.filter_eq_nil_iff]
  refine forall₂_congr fun org _ => ?_
  have howns : (db.organization_members.rows.any fun m =>
      m.organization_id == org.id && m.user_id == u && m.role.is_owner) = true ↔
      db.role_in org.id u = some .owner := by
    simp only [List.any_eq_true, Bool.and_eq_true, beq_iff_eq, OrganizationRole.is_owner,
      role_in_eq_some]
    exact exists_congr fun m => by tauto
  have hother : (db.organization_members.rows.any fun m =>
      m.organization_id == org.id && m.role.is_owner && m.user_id != u) = true ↔
      db.OtherOwner org.id u := by
    simp only [List.any_eq_true, Bool.and_eq_true, beq_iff_eq, bne_iff_ne,
      OrganizationRole.is_owner,
      OtherOwner, mem_owners]
    exact exists_congr fun m => by tauto
  rw [Bool.and_eq_true, Bool.not_eq_true', not_and, Bool.not_eq_false, howns, hother]

end Database

/-! ### What a statement does to the members -/

/-- What one statement of `p` does to the organizations and their members. -/
inductive MembershipStep (p : ℕ) (db db' : Database) :
    (q : Stmt) → Except Failure q.Reply → Prop where
  | idle {q : Stmt} {x : Except Failure q.Reply}
      (hmembers : db'.organization_members = db.organization_members)
      (horganizations : ∀ o, db'.organizations.hasKey o = db.organizations.hasKey o) :
      MembershipStep p db db' q x
  | account_deleted {u : Uuid} {found : Bool}
      (horganizations : db'.organizations = db.organizations)
      (hmembers : db'.organization_members =
        db.organization_members.deleteWhere fun m => m.user_id == u) :
      MembershipStep p db db' (.users (.delete_apply u)) (.ok found)
  | organization_deleted {o : Uuid} {found : Bool}
      (hfree : db.free p (.organization o) .update = true)
      (horganizations : db'.organizations = db.organizations.deleteWhere fun org => org.id == o)
      (hmembers : db'.organization_members =
        db.organization_members.deleteWhere fun m => m.organization_id == o) :
      MembershipStep p db db' (.organizations (.delete o)) (.ok found)
  | committed {ws : List Write}
      (horganizations : db'.organizations = (Write.applyAll db ws).organizations)
      (hmembers : db'.organization_members = (Write.applyAll db ws).organization_members) :
      MembershipStep p db db' (.commit ws) (.ok ())

section Step

variable {P : Platform} {p : ℕ} {c : Choice} {db db' : Database}

/-- **What a statement does to the members.** -/
theorem Stmt.membershipStep {q : Stmt} {x : Except Failure q.Reply}
    (h : q.run P p c db = some (db', x)) : MembershipStep p db db' q x := by
  have idle_of : db'.organization_members = db.organization_members →
      db'.organizations = db.organizations → MembershipStep p db db' q x :=
    fun hmembers horganizations => .idle hmembers fun o => by rw [horganizations]
  cases q with
  | users q =>
    cases q with
    | delete_apply u =>
      simp only [Stmt.run, UserStmt.run] at h
      split at h <;> cases h
      exact .account_deleted rfl rfl
    | _ =>
      exact idle_of (Stmt.footprint .organization_members rfl h)
        (Stmt.footprint .organizations rfl h)
  | organizations q =>
    cases q with
    | delete o =>
      simp only [Stmt.run, OrganizationStmt.run] at h
      split at h
      · next hfree =>
        cases h
        simp only [Bool.and_eq_true] at hfree
        exact .organization_deleted hfree.1.1.1 rfl rfl
      · cases h
    | rename o name =>
      simp only [Stmt.run, OrganizationStmt.run] at h
      (repeat' split at h) <;> cases h
      · exact .idle rfl fun _ => rfl
      · exact .idle rfl fun _ => by rw [Table.hasKey_updateWhere]
    | insert_organization _ _ | insert_owner _ _ _ | access _ _ | lock _ | role_of _ _
    | member_of _ _ | upsert_member _ _ _ _ | remove_member _ _ | owner_count _ =>
      simp only [Stmt.run, OrganizationStmt.run] at h
      (repeat' split at h) <;> cases h <;> exact .idle rfl fun _ => rfl
  | commit ws =>
    cases h
    exact .committed rfl rfl
  | _ =>
    exact idle_of (Stmt.footprint .organization_members rfl h)
      (Stmt.footprint .organizations rfl h)

/-- The organization whose membership a write belongs to. -/
def Write.belongs_to : Write → Option Uuid
  | .organization row => some row.id
  | .organization_member row => some row.organization_id
  | .remove_member organization_id _ => some organization_id
  | _ => none

/-- An organization is there, or is not, as it was, with the members it had. -/
structure SameMembership (o : Uuid) (db db' : Database) : Prop where
  hasKey : db'.organizations.hasKey o = db.organizations.hasKey o
  role_in : ∀ u, db'.role_in o u = db.role_in o u

theorem Write.apply_membership {o : Uuid} {w : Write} (hw : w.belongs_to ≠ some o) :
    SameMembership o db (w.apply db) := by
  cases w with
  | organization row =>
    refine ⟨?_, fun u => rfl⟩
    have hne : row.id ≠ o := fun heq => hw (congrArg some heq)
    rw [Bool.eq_iff_iff, Table.hasKey_iff, Table.hasKey_iff]
    constructor
    · rintro ⟨org, horg, rfl⟩
      rcases Table.mem_insertNew.mp horg with horg | ⟨rfl, -⟩
      · exact ⟨org, horg, rfl⟩
      · exact absurd rfl hne
    · rintro ⟨org, horg, rfl⟩
      exact ⟨org, Table.mem_insertNew_of_mem horg, rfl⟩
  | organization_member row =>
    refine ⟨rfl, fun u => Database.role_in_upsert.trans (if_neg ?_)⟩
    rintro ⟨rfl, -⟩
    exact hw rfl
  | remove_member o' u' =>
    refine ⟨rfl, fun u => Database.role_in_remove.trans (if_neg ?_)⟩
    rintro ⟨rfl, -⟩
    exact hw rfl
  | session _ | session_token _ | use_token _ _ _ | touch_session _ _ | consume_tokens _ _
  | one_time_token _ | submission _ | claim_uploads _ _ | outbox_event _ =>
    exact ⟨rfl, fun _ => rfl⟩

theorem Write.applyAll_membership {o : Uuid} {ws : List Write}
    (hws : ∀ w ∈ ws, w.belongs_to ≠ some o) : SameMembership o db (Write.applyAll db ws) := by
  induction ws generalizing db with
  | nil => exact ⟨rfl, fun _ => rfl⟩
  | cons w ws ih =>
    have hw : SameMembership o db (w.apply db) :=
      Write.apply_membership (hws w List.mem_cons_self)
    have hrest : SameMembership o (w.apply db) (Write.applyAll (w.apply db) ws) :=
      ih fun w' hw' => hws w' (List.mem_cons_of_mem _ hw')
    exact ⟨hrest.hasKey.trans hw.hasKey, fun u => (hrest.role_in u).trans (hw.role_in u)⟩

/-- The organizations a commit leaves were there, or are its own. -/
theorem Write.hasKey_of_applyAll {o : Uuid} {ws : List Write}
    (h : (Write.applyAll db ws).organizations.hasKey o = true) :
    db.organizations.hasKey o = true ∨ ∃ row, .organization row ∈ ws ∧ row.id = o := by
  induction ws generalizing db with
  | nil => exact .inl h
  | cons w ws ih =>
    rcases ih h with h | ⟨row, hrow, hid⟩
    · cases w with
      | organization row =>
        obtain ⟨org, horg, rfl⟩ := Table.hasKey_iff.mp h
        rcases Table.mem_insertNew.mp horg with horg | ⟨rfl, -⟩
        · exact .inl (Table.hasKey_iff.mpr ⟨org, horg, rfl⟩)
        · exact .inr ⟨org, List.mem_cons_self, rfl⟩
      | session _ | session_token _ | use_token _ _ _ | touch_session _ _ | consume_tokens _ _
      | one_time_token _ | organization_member _ | remove_member _ _ | submission _
      | claim_uploads _ _ | outbox_event _ => exact .inl h
    · exact .inr ⟨row, List.mem_cons_of_mem _ hrow, hid⟩

end Step

/-! ### What the trace says -/

/-- An account is deleted. -/
def DeletesAccount : Event → Prop
  | ⟨_, _, _, .users (.delete_apply _), .ok _⟩ => True
  | _ => False

/-- `p` counts the owners of its organization. -/
def CountsOwners (p : ℕ) : Event → Prop
  | ⟨p', _, _, .organizations (.owner_count _), .ok _⟩ => p' = p
  | _ => False

theorem not_countsOwners {p : ℕ} {e : Event} (h : e.pid ≠ p) : ¬ CountsOwners p e := by
  intro hcounts
  unfold CountsOwners at hcounts
  split at hcounts
  · exact h hcounts
  · exact hcounts

/-- No account has been deleted. -/
def Undisturbed (log : List Event) : Prop := ∀ e ∈ log, ¬ DeletesAccount e

/-- The id of an organization is given when its row is inserted, and used when it is committed. -/
def organizationNames : Naming Event Uuid where
  gives p id
    | ⟨p', _, _, .organizations (.insert_organization _ _), .ok row⟩ => p' = p ∧ row.id = id
    | _ => False
  uses p id
    | ⟨p', _, _, .commit ws, .ok ()⟩ => p' = p ∧ ∃ row, .organization row ∈ ws ∧ row.id = id
    | _ => False

/-- An organization with this id was there before the trace began. -/
def oldOrganization (db₀ : Database) (id : Uuid) : Prop := db₀.organizations.hasKey id = true

/-- The actor of a membership change. -/
def Request.acts : Request → Option Uuid
  | add_member _ _ _ actor_id | set_member_role _ _ _ actor_id | remove_member _ _ actor_id =>
    some actor_id
  | _ => none

/-- What an account may do to the membership of an account, where `before` and `after` are the roles
of the latter: leave, and as a manager whatever both roles are in reach of. -/
def Database.Entitled (db : Database) (o actor_id user_id : Uuid)
    (before after : Option OrganizationRole) : Prop :=
  (user_id = actor_id ∧ after = none) ∨
    ∃ role, db.role_in o actor_id = some role ∧ role.is_manager = true ∧
      (∀ other ∈ before, role.reaches other = true) ∧ ∀ other ∈ after, role.reaches other = true

/-! ### The lock and what it protects -/

/-- `p` has locked the organization. -/
structure HoldsOrganization (p : ℕ) (db : Database) (o : Uuid) : Prop where
  holds : db.locks.Holds p (.organization o) .update
  hasKey : db.organizations.hasKey o = true

/-- The lock stays, and so do the members, unless accounts are deleted. -/
structure MemberRely (p : ℕ) (s s' : State) : Prop where
  grows : ∃ new, s'.log = new ++ s.log
  /-- A lock on an organization that is there is kept, and the organization with it. -/
  holds : ∀ o, HoldsOrganization p s.db o → HoldsOrganization p s'.db o
  /-- Under the lock nobody becomes a member and nobody changes role, whatever happens. -/
  none_new : ∀ o, HoldsOrganization p s.db o → ∀ u role, s'.db.role_in o u = some role →
    s.db.role_in o u = some role
  /-- Under the lock nobody stops being a member either, unless an account is deleted. -/
  none_gone : ∀ o, HoldsOrganization p s.db o →
    (∀ new, s'.log = new ++ s.log → ∀ e ∈ new, ¬ DeletesAccount e) →
    ∀ u, s'.db.role_in o u = s.db.role_in o u

theorem MemberRely.refl (p : ℕ) (s : State) : MemberRely p s s :=
  ⟨⟨[], rfl⟩, fun _ h => h, fun _ _ _ _ h => h, fun _ _ _ _ => rfl⟩

theorem MemberRely.trans {p : ℕ} {s s' s'' : State} (h : MemberRely p s s')
    (h' : MemberRely p s' s'') : MemberRely p s s'' := by
  obtain ⟨new, hnew⟩ := h.grows
  obtain ⟨new', hnew'⟩ := h'.grows
  have hall : s''.log = (new' ++ new) ++ s.log := by rw [hnew', hnew, List.append_assoc]
  refine ⟨⟨_, hall⟩, fun o ho => h'.holds o (h.holds o ho), fun o ho u role hrole => ?_,
    fun o ho hquiet u => ?_⟩
  · exact h.none_new o ho u role (h'.none_new o (h.holds o ho) u role hrole)
  · have hquiet := hquiet _ hall
    refine (h'.none_gone o (h.holds o ho) ?_ u).trans (h.none_gone o ho ?_ u)
    · intro new₁ hnew₁ e he
      obtain rfl := List.append_cancel_right (hnew₁.symm.trans hnew')
      exact hquiet e (List.mem_append_left _ he)
    · intro new₁ hnew₁ e he
      obtain rfl := List.append_cancel_right (hnew₁.symm.trans hnew)
      exact hquiet e (List.mem_append_right _ he)

/-- Where no account has been deleted, who is a member has not changed. -/
theorem MemberRely.role_in {p : ℕ} {s s' : State} (h : MemberRely p s s')
    (hquiet : Undisturbed s'.log) {o : Uuid} (ho : HoldsOrganization p s.db o) (u : Uuid) :
    s'.db.role_in o u = s.db.role_in o u := by
  refine h.none_gone o ho (fun new hnew e he => ?_) u
  exact hquiet e (hnew ▸ List.mem_append_left _ he)

theorem MemberRely.undisturbed {p : ℕ} {s s' : State} (h : MemberRely p s s')
    (hquiet : Undisturbed s'.log) : Undisturbed s.log := by
  obtain ⟨new, hnew⟩ := h.grows
  exact fun e he => hquiet e (hnew ▸ List.mem_append_right _ he)

/-- `p` has read the role of an account under the lock. -/
structure Knows (p : ℕ) (s : State) (o u : Uuid) (current : Option OrganizationRole) : Prop where
  holds : HoldsOrganization p s.db o
  /-- A deletion may have removed the row since it was read, so what is there now is what was
  read. -/
  at_most : ∀ role, s.db.role_in o u = some role → current = some role
  /-- Without deletions what was read is what is there. -/
  exact : Undisturbed s.log → s.db.role_in o u = current

theorem Knows.mono {p : ℕ} {s s' : State} {o u : Uuid} {current : Option OrganizationRole}
    (h : Knows p s o u current) (hrely : MemberRely p s s') : Knows p s' o u current where
  holds := hrely.holds o h.holds
  at_most role hrole := h.at_most role (hrely.none_new o h.holds u role hrole)
  exact hquiet := (hrely.role_in hquiet h.holds u).trans (h.exact (hrely.undisturbed hquiet))

/-- Since `p` has counted the owners, there is another one, unless accounts were deleted. The
count is of rows and the guard is about the future, so all it can promise is that nothing else
than a deletion stands between the count and the commit. -/
def Guarded (p : ℕ) (s : State) (o u : Uuid) : Prop :=
  ¬ Since DeletesAccount (CountsOwners p) s.log → s.db.OtherOwner o u

theorem Guarded.mono {p : ℕ} {s s' : State} {o u : Uuid} (h : Guarded p s o u)
    (hrely : MemberRely p s s') (ho : HoldsOrganization p s.db o) (new : List Event)
    (hnew : s'.log = new ++ s.log) (hcounts : ∀ e ∈ new, ¬ CountsOwners p e) :
    Guarded p s' o u := by
  intro hsince
  rw [hnew, since_append hcounts, not_or] at hsince
  obtain ⟨v, hne, hv⟩ := Database.otherOwner_iff.mp (h hsince.2)
  refine Database.otherOwner_iff.mpr ⟨v, hne, ?_⟩
  rw [hrely.none_gone o ho ?_ v, hv]
  intro new' hnew' e he hd
  obtain rfl := List.append_cancel_right (hnew.symm.trans hnew')
  exact hsince.1 ⟨e, he, hd⟩

/-- What is known when a role is written: `current` is the role the account had when it was read. -/
structure MayChange (p : ℕ) (r : Request) (s : State) (o u : Uuid)
    (current after : Option OrganizationRole) : Prop where
  knows : Knows p s o u current
  entitled : Undisturbed s.log → ∃ actor_id ∈ r.acts, s.db.Entitled o actor_id u current after
  guarded : current = some .owner → after ≠ some .owner → Guarded p s o u

/-- The commits that are made. -/
inductive MayCommit (turnover : Prop) (p : ℕ) (r : Request) (s : State) : List Write → Prop where
  | other {ws : List Write} (h : ∀ w ∈ ws, w.belongs_to = none) : MayCommit turnover p r s ws
  | create {org : OrganizationRecord} {m : OrganizationMember} (hturnover : turnover)
      (howner : m.organization_id = org.id) (hrole : m.role = .owner)
      (hheld : organizationNames.Held p org.id s.log) :
      MayCommit turnover p r s [.organization org, .organization_member m]
  | set {row : OrganizationMember} {current : Option OrganizationRole}
      (h : MayChange p r s row.organization_id row.user_id current (some row.role)) :
      MayCommit turnover p r s [.organization_member row]
  | remove {o u : Uuid} {current : Option OrganizationRole} (h : MayChange p r s o u current none) :
      MayCommit turnover p r s [.remove_member o u]

/-- What has to hold when a statement is executed. Organizations come, and they and accounts go,
only if there is `turnover`. -/
def MemberPre (turnover : Prop) (p : ℕ) (r : Request) (s : State) : Stmt → Prop
  | .commit ws => MayCommit turnover p r s ws
  | .users (.delete_apply _) | .organizations (.delete _) => turnover
  | _ => True

/-- What holds in every run. -/
structure MemberInv (db₀ : Database) (turnover : Prop) (s : State) : Prop where
  locks : s.db.locks.Exclusive
  /-- Nobody knows the identifier of an organization before it is committed, but who makes it. -/
  fresh : organizationNames.Fresh (oldOrganization db₀) (· ∈ s.db.issued) s.log
  /-- An organization that is there has used its identifier, so it is not held by anybody. -/
  used : ∀ o, s.db.organizations.hasKey o = true →
    organizationNames.Used (oldOrganization db₀) o s.log
  undisturbed : ¬ turnover → Undisturbed s.log

section Sound

variable {P : Platform} {G : Regime} {p p' : ℕ} {r : Request} {q : Stmt}
  {x : Except Failure q.Reply} {s s' : State} {db db' db₀ : Database} {turnover : Prop}

/-- The others' organizations are none of a commit's business. -/
theorem MayCommit.others (hs : MemberInv db₀ turnover s) {ws : List Write}
    (h : MayCommit turnover p r s ws)
    (hne : p' ≠ p) {o : Uuid} (ho : HoldsOrganization p' s.db o) :
    ∀ w ∈ ws, w.belongs_to ≠ some o := by
  have hdiffers : ∀ o', HoldsOrganization p s.db o' → o' ≠ o := by
    rintro o' ho' rfl
    exact hne (hs.locks.eq_of_holds ho.holds ho'.holds rfl)
  cases h with
  | other h =>
    intro w hw heq
    rw [h w hw] at heq
    cases heq
  | @create org m _ howner _ hheld =>
    have hfresh : org.id ≠ o := by
      rintro rfl
      exact (hs.fresh.held p _ hheld).2 (hs.used _ ho.hasKey)
    intro w hw heq
    rcases List.mem_cons.mp hw with rfl | hw
    · exact hfresh (Option.some.inj heq)
    · obtain rfl := List.mem_singleton.mp hw
      exact hfresh (howner.symm.trans (Option.some.inj heq))
  | set h =>
    intro w hw heq
    obtain rfl := List.mem_singleton.mp hw
    exact hdiffers _ h.knows.holds (Option.some.inj heq)
  | remove h =>
    intro w hw heq
    obtain rfl := List.mem_singleton.mp hw
    exact hdiffers _ h.knows.holds (Option.some.inj heq)

/-- A statement of somebody else leaves the members of a locked organization alone, unless it
turnover an account. -/
theorem MembershipStep.same (hs : MemberInv db₀ turnover s) (hpre : MemberPre turnover p r s q)
    (h : MembershipStep p s.db db' q x) (hne : p' ≠ p) {o : Uuid}
    (ho : HoldsOrganization p' s.db o) :
    SameMembership o s.db db' ∨ (DeletesAccount ⟨p, r, s.db, q, x⟩ ∧
      db'.organizations.hasKey o = true ∧
      ∀ u role, db'.role_in o u = some role → s.db.role_in o u = some role) := by
  cases h with
  | idle hmembers horganizations =>
    exact .inl ⟨horganizations o, fun u => Database.role_in_congr hmembers⟩
  | @account_deleted gone _ horganizations hmembers =>
    refine .inr ⟨trivial, horganizations ▸ ho.hasKey, fun u role hrole => ?_⟩
    rw [Database.role_in_deleteWhere (fun _ u => u == gone) hmembers fun _ => rfl] at hrole
    split at hrole
    · cases hrole
    · exact hrole
  | @organization_deleted gone _ hfree horganizations hmembers =>
    have hgone : o ≠ gone := by
      rintro rfl
      have hno : s.db.locks.grantable p (.organization o) .update = false :=
        Locks.not_grantable ho.holds hne rfl
      rw [Database.free, hno] at hfree
      cases hfree
    refine .inl ⟨?_, fun u => ?_⟩
    · obtain ⟨org, horg, rfl⟩ := Table.hasKey_iff.mp ho.hasKey
      rw [ho.hasKey, horganizations]
      exact Table.hasKey_iff.mpr ⟨org, Table.mem_deleteWhere.mpr ⟨horg, by simpa using hgone⟩, rfl⟩
    · rw [Database.role_in_deleteWhere (fun o _ => o == gone) hmembers fun _ => rfl]
      simp [hgone]
  | committed horganizations hmembers =>
    have hsame : SameMembership o s.db _ := Write.applyAll_membership (hpre.others hs hne ho)
    refine .inl ⟨?_, fun u => ?_⟩
    · rw [horganizations]
      exact hsame.hasKey
    · exact (Database.role_in_congr hmembers).trans (hsame.role_in u)

/-- Others can rely on the lock. -/
theorem memberRely_of_effect (hs : MemberInv db₀ turnover s) (hpre : MemberPre turnover p r s q)
    (h : G.Effect (store P) p r q s x s') (hne : p' ≠ p) : MemberRely p' s s' := by
  have hlocks := locks_moved_of_effect h
  have hsame : ∀ o, HoldsOrganization p' s.db o →
      SameMembership o s.db s'.db ∨ (DeletesAccount ⟨p, r, s.db, q, x⟩ ∧
        s'.db.organizations.hasKey o = true ∧
        ∀ u role, s'.db.role_in o u = some role → s.db.role_in o u = some role) := by
    intro o ho
    cases h with
    | fail _ => exact .inl ⟨rfl, fun _ => rfl⟩
    | run _ hrun => exact (Stmt.membershipStep hrun).same hs hpre hne ho
  refine ⟨⟨[_], h.log_eq⟩, fun o ho => ⟨hlocks.holds ho.holds hne, ?_⟩, fun o ho u role hrole => ?_,
    fun o ho hquiet u => ?_⟩
  · rcases hsame o ho with hsame | ⟨-, hkey, -⟩
    · exact hsame.hasKey.trans ho.hasKey
    · exact hkey
  · rcases hsame o ho with hsame | ⟨-, -, hmost⟩
    · exact (hsame.role_in u).symm.trans hrole
    · exact hmost u role hrole
  · rcases hsame o ho with hsame | ⟨hdeletes, -⟩
    · exact hsame.role_in u
    · exact absurd hdeletes (hquiet [_] h.log_eq _ (List.mem_singleton.mpr rfl))

/-- The ids of organizations stay fresh. -/
theorem fresh_organizationNames (hs : MemberInv db₀ turnover s) (hpre : MemberPre turnover p r s q)
    (h : G.Effect (store P) p r q s x s') :
    organizationNames.Fresh (oldOrganization db₀) (· ∈ s'.db.issued) s'.log := by
  rw [h.log_eq]
  cases h with
  | fail _ =>
    refine hs.fresh.idle (fun _ hid => hid) (fun p' id hg => ?_) fun p' id hu => ?_
    · unfold organizationNames at hg
      dsimp only at hg
      split at hg
      · next heq => cases heq
      · exact hg
    · unfold organizationNames at hu
      dsimp only at hu
      split at hu
      · next heq => cases heq
      · exact hu
  | @run c db x _ hrun =>
    have hissued : ∀ id, id ∈ s.db.issued → id ∈ db.issued := by
      intro id hid
      obtain ⟨n, hn⟩ := Stmt.issued_mono hrun
      rw [hn]
      exact List.mem_append_right _ hid
    refine hs.fresh.cons hissued (fun p' id hg => ?_) fun p' id hu => ?_
    · unfold organizationNames at hg
      dsimp only at hg
      split at hg
      · next heq =>
        cases heq
        obtain ⟨rfl, rfl⟩ := hg
        simp only [store, Stmt.run, OrganizationStmt.run] at hrun
        split at hrun
        · next hunused =>
          split at hrun <;> cases hrun
          exact ⟨of_decide_eq_true hunused, List.mem_cons_self, fun p' hp' => hp'.1.symm⟩
        · cases hrun
      · exact hg.elim
    · unfold organizationNames at hu
      dsimp only at hu
      split at hu
      · next heq =>
        cases heq
        obtain ⟨rfl, row, hrow, rfl⟩ := hu
        cases hpre with
        | other h => cases h _ hrow
        | create _ _ _ hheld =>
          rcases List.mem_cons.mp hrow with hrow | hrow
          · cases hrow
            exact hheld
          · cases List.mem_singleton.mp hrow
        | set _ => cases List.mem_singleton.mp hrow
        | remove _ => cases List.mem_singleton.mp hrow
      · exact hu.elim

/-- Every statement keeps the invariant. -/
theorem memberInv_of_effect (hs : MemberInv db₀ turnover s) (hpre : MemberPre turnover p r s q)
    (h : G.Effect (store P) p r q s x s') : MemberInv db₀ turnover s' := by
  have hlog := h.log_eq
  have hold : ∀ o, organizationNames.Used (oldOrganization db₀) o s.log →
      organizationNames.Used (oldOrganization db₀) o s'.log := fun o ho => ho.mono fun e => h.mem
  refine ⟨(locks_moved_of_effect h).exclusive hs.locks, fresh_organizationNames hs hpre h,
    fun o ho => ?_, fun hdeletes e he => ?_⟩
  · cases h with
    | fail _ => exact hold o (hs.used o ho)
    | run _ hrun =>
      cases Stmt.membershipStep hrun with
      | idle _ horganizations => exact hold o (hs.used o ((horganizations o).symm.trans ho))
      | account_deleted horganizations _ =>
        refine hold o (hs.used o ?_)
        rwa [Shared.push_db, horganizations] at ho
      | organization_deleted _ horganizations _ =>
        refine hold o (hs.used o ?_)
        rw [Shared.push_db, horganizations] at ho
        obtain ⟨org, horg, rfl⟩ := Table.hasKey_iff.mp ho
        exact Table.hasKey_iff.mpr ⟨org, (Table.mem_deleteWhere.mp horg).1, rfl⟩
      | committed horganizations _ =>
        rw [Shared.push_db, horganizations] at ho
        rcases Write.hasKey_of_applyAll ho with ho | ⟨row, hrow, rfl⟩
        · exact hold o (hs.used o ho)
        · exact .inr ⟨_, List.mem_cons_self, p, rfl, row, hrow, rfl⟩
  · rw [hlog] at he
    rcases List.mem_cons.mp he with rfl | he
    · intro hd
      unfold DeletesAccount at hd
      split at hd
      · next heq =>
        cases heq
        exact hdeletes hpre
      · exact hd
    · exact hs.undisturbed hdeletes e he

/-- Where a run begins. -/
theorem MemberInv.start (hlocks : db₀.locks.Exclusive)
    (hissued : ∀ org ∈ db₀.organizations.rows, org.id ∈ db₀.issued) :
    MemberInv db₀ turnover ⟨db₀, []⟩ where
  locks := hlocks
  fresh := Naming.fresh_nil fun o ho => by
    obtain ⟨org, horg, rfl⟩ := Table.hasKey_iff.mp ho
    exact hissued org horg
  used o ho := .inl ho
  undisturbed _ _ he := absurd he List.not_mem_nil

end Sound

/-- **The logic of membership changes.** -/
def memberLogic (P : Platform) (G : Regime) (db₀ : Database) (turnover : Prop) :
    Logic G (store P) where
  inv := MemberInv db₀ turnover
  rely := MemberRely
  pre p r q s := MemberPre turnover p r s q
  rely_refl := MemberRely.refl
  rely_trans := MemberRely.trans
  sound hs hpre h :=
    ⟨memberInv_of_effect hs hpre h, fun _ hne => memberRely_of_effect hs hpre h hne⟩
  stop_sound _ hs := by
    refine ⟨⟨hs.locks.release, hs.fresh, hs.used, hs.undisturbed⟩, fun p' hne => ?_⟩
    refine ⟨⟨[], rfl⟩, fun o ho => ⟨ho.holds.release_of_ne hne, ho.hasKey⟩, fun _ _ _ _ h => h,
      fun _ _ _ _ => rfl⟩
  pass_sound hs := by
    refine ⟨⟨hs.locks, hs.fresh, hs.used, hs.undisturbed⟩, fun p' => ?_⟩
    exact ⟨⟨[], rfl⟩, fun o ho => ⟨ho.holds, ho.hasKey⟩, fun _ _ _ _ h => h, fun _ _ _ _ => rfl⟩

/-! ### The scripts -/

section Scripts

variable {d : Deployment} {P : Platform} {G : Regime} {db₀ : Database} {turnover : Prop} {p : ℕ}
  {r : Request} {s s' : State} {o u actor_id : Uuid} {current after : Option OrganizationRole}
  {role actor_role : OrganizationRole} {ε α : Type}

/-- The statements of a membership change that come before its commit. -/
def OrganizationStmt.prepares : OrganizationStmt → Prop
  | delete _ | rename _ _ => False
  | _ => True

/-- They change nothing but locks. -/
theorem memberRely_of_prepares {q : OrganizationStmt} (hq : q.prepares) {a : q.Reply}
    (h : G.Effect (store P) p r (.organizations q) s (.ok a) s') : MemberRely p s s' := by
  obtain ⟨-, c, db, hrun, rfl⟩ := h.of_ok
  have hsame : db.organizations = s.db.organizations ∧
      db.organization_members = s.db.organization_members ∧
      ∀ l ∈ s.db.locks, l ∈ db.locks := by
    cases q with
    | delete _ | rename _ _ => exact hq.elim
    | insert_organization _ _ | insert_owner _ _ _ | access _ _ | lock _ | role_of _ _
    | member_of _ _ | upsert_member _ _ _ _ | remove_member _ _ | owner_count _ =>
      simp only [store, Stmt.run, OrganizationStmt.run] at hrun
      (repeat' split at hrun) <;> cases hrun
      all_goals first
        | exact ⟨rfl, rfl, fun _ hl => hl⟩
        | exact ⟨rfl, rfl, fun _ hl => List.mem_cons_of_mem _ hl⟩
  obtain ⟨horganizations, hmembers, hlocks⟩ := hsame
  refine ⟨⟨[_], rfl⟩, fun o ho => ⟨hlocks _ ho.holds, ?_⟩, fun o _ u role hrole => ?_,
    fun o _ _ u => Database.role_in_congr hmembers⟩
  · rw [Shared.push_db, horganizations]
    exact ho.hasKey
  · exact (Database.role_in_congr hmembers).symm.trans hrole

/-- One of them, and what follows. -/
theorem wp_prepare [Raises Failure ε] {q : OrganizationStmt} (hq : q.prepares)
    {f : q.Reply → Code ε α}
    (h : ∀ a s₁ s₂, (memberLogic P G db₀ turnover).Env p s s₁ → MemberRely p s₁ s₂ →
      (∃ c db, q.run p c s₁.db = some (db, .ok a) ∧ s₂.db = db) →
      s₂.log = ⟨p, r, s₁.db, .organizations q, .ok a⟩ :: s₁.log → MemberInv db₀ turnover s₂ →
      (memberLogic P G db₀ turnover).wp p r (f a) (fun _ _ => True) s₂) :
    (memberLogic P G db₀ turnover).wp p r (ask (.organizations q) >>= f) (fun _ _ => True) s := by
  have hpre : ∀ s, MemberPre turnover p r s (.organizations q) := fun s => by
    cases q <;> trivial
  refine Logic.wp_query_bind fun s₁ he₁ => ⟨hpre s₁, fun a s₂ hx hs₂ => ?_,
    fun _ _ _ _ _ _ => trivial⟩
  obtain ⟨-, c, db, hrun, heq⟩ := hx.of_ok
  exact h a s₁ s₂ he₁ (memberRely_of_prepares hq hx) ⟨c, db, hrun, congrArg Shared.db heq⟩
    hx.log_eq hs₂

/-- What `p` has counted on survives what the others do. -/
theorem Guarded.env (h : Guarded p s o u) (ho : HoldsOrganization p s.db o)
    (he : (memberLogic P G db₀ turnover).Env p s s') : Guarded p s' o u := by
  obtain ⟨new, hnew, hothers⟩ := he.others
  exact h.mono he.rely ho new hnew fun e hmem => not_countsOwners (hothers e hmem)

/-- And a statement of its own that does not count again. -/
theorem Guarded.step (h : Guarded p s o u) (ho : HoldsOrganization p s.db o)
    (hrely : MemberRely p s s') {e : Event} (hlog : s'.log = e :: s.log)
    (hcounts : ¬ CountsOwners p e) : Guarded p s' o u := by
  refine h.mono hrely ho [e] hlog fun e' he' => ?_
  obtain rfl := List.mem_singleton.mp he'
  exact hcounts

/-- Code that may run at any time. -/
theorem wp_of_memberPre {x : Code ε α}
    (hx : x.Issues fun q => ∀ r s, MemberPre turnover p r s q) :
    (memberLogic P G db₀ turnover).wp p r x (fun _ _ => True) s :=
  Logic.wp_of_does (fun q => ∀ r s, MemberPre turnover p r s q) (fun _ _ => True) (fun _ => True)
    (fun _ => True) (fun _ _ => trivial) (fun hq _ _ => hq _ _)
    (fun _ _ _ _ _ => ⟨trivial, trivial⟩) (fun _ _ => trivial) hx.does trivial

/-- The lock is taken. -/
theorem wp_lock {f : Unit → Code OrganizationError α}
    (h : ∀ s', HoldsOrganization p s'.db o → MemberInv db₀ turnover s' →
      (memberLogic P G db₀ turnover).wp p r (f ()) (fun _ _ => True) s') :
    (memberLogic P G db₀ turnover).wp p r (OrganizationService.lock o >>= f)
    (fun _ _ => True) s := by
  rw [OrganizationService.lock, Script.bind_assoc]
  refine wp_prepare (by trivial) fun found s₁ s₂ _ _ ⟨c, db, hrun, hdb⟩ _ hs₂ => ?_
  cases found with
  | none => exact fun _ _ => trivial
  | some id =>
    refine h s₂ ?_ hs₂
    simp only [OrganizationStmt.run] at hrun
    split at hrun
    · next hkey =>
      split at hrun <;> cases hrun
      rw [hdb]
      exact ⟨Locks.holds_acquire_self, hkey⟩
    · cases hrun

/-- A role is read under the lock. -/
theorem wp_role_of [Raises Failure ε] {f : Option OrganizationRole → Code ε α}
    (ho : HoldsOrganization p s.db o)
    (h : ∀ current s', MemberRely p s s' → Knows p s' o u current → MemberInv db₀ turnover s' →
      (memberLogic P G db₀ turnover).wp p r (f current) (fun _ _ => True) s') :
    (memberLogic P G db₀ turnover).wp p r (ask (.organizations (.role_of o u)) >>= f)
      (fun _ _ => True) s := by
  refine wp_prepare (by trivial) fun found s₁ s₂ he₁ hrely ⟨c, db, hrun, hdb⟩ _ hs₂ => ?_
  cases hrun
  have ho₁ := he₁.rely.holds o ho
  have hsame : s₂.db.role_in o u = s₁.db.role_in o u := by rw [hdb]
  exact h _ s₂ (he₁.rely.trans hrely) ⟨hrely.holds o ho₁, fun role hrole => hsame.symm.trans hrole,
    fun _ => hsame⟩ hs₂

/-- The caller's own role. -/
theorem wp_locked_role {f : OrganizationRole → Code OrganizationError α}
    (ho : HoldsOrganization p s.db o)
    (h : ∀ role s', MemberRely p s s' → Knows p s' o u (some role) → MemberInv db₀ turnover s' →
      (memberLogic P G db₀ turnover).wp p r (f role) (fun _ _ => True) s') :
    (memberLogic P G db₀ turnover).wp p r (OrganizationService.locked_role o u >>= f)
      (fun _ _ => True) s := by
  rw [OrganizationService.locked_role, Script.bind_assoc]
  refine wp_role_of ho fun current s' hrely hknows hs' => ?_
  cases current with
  | none => exact fun _ _ => trivial
  | some role => exact h role s' hrely hknows hs'

/-- The guard of a change that takes an owner. -/
theorem wp_ensure_another_owner {f : Unit → Code OrganizationError α}
    (h : ∀ s', MemberRely p s s' → Guarded p s' o u → MemberInv db₀ turnover s' →
      (memberLogic P G db₀ turnover).wp p r (f ()) (fun _ _ => True) s') :
    (memberLogic P G db₀ turnover).wp p r (OrganizationService.ensure_another_owner o >>= f)
      (fun _ _ => True) s := by
  rw [OrganizationService.ensure_another_owner, Script.bind_assoc]
  refine wp_prepare (by trivial) fun n s₁ s₂ he₁ hrely ⟨c, db, hrun, hdb⟩ _ hs₂ => ?_
  cases hrun
  split
  · exact fun _ _ => trivial
  · next htwo =>
    refine h s₂ (he₁.rely.trans hrely) (fun _ => ?_) hs₂
    rw [hdb]
    exact Database.otherOwner_of_two (Nat.lt_of_not_le htwo)

/-- A role is written. -/
theorem wp_write_role {now : Timestamp} (hknows : Knows p s o u current)
    (hentitled : ∀ s', MemberRely p s s' → Undisturbed s'.log →
      ∃ actor_id ∈ r.acts, s'.db.Entitled o actor_id u current (some role)) :
    (memberLogic P G db₀ turnover).wp p r
      (OrganizationService.write_role o u current role now) (fun _ _ => True) s := by
  -- The upsert and the commit, once the guard has been passed.
  have hwrite : ∀ s₁, MemberRely p s s₁ → (current = some .owner → Guarded p s₁ o u) →
      (memberLogic P G db₀ turnover).wp p r (do
        let row ← ask (.organizations (.upsert_member o u role now))
        ask (.commit [.organization_member row]) : Code OrganizationError Unit)
        (fun _ _ => True) s₁ := by
    intro s₁ hrely₁ hguarded
    refine wp_prepare (by trivial) fun row s₂ s₃ he₂ hrely₃ hrun hlog _ => ?_
    obtain ⟨c, db, hrun, -⟩ := hrun
    have hrow : row.organization_id = o ∧ row.user_id = u ∧ row.role = role := by
      simp only [OrganizationStmt.run] at hrun
      split at hrun
      · next m hfind =>
        split at hrun <;> cases hrun
        have hkey := (Table.find?_eq_some.mp hfind).2
        exact ⟨(Prod.mk.inj hkey).1, (Prod.mk.inj hkey).2, rfl⟩
      · (repeat' split at hrun) <;> cases hrun
        exact ⟨rfl, rfl, rfl⟩
    refine Logic.wp_query fun s₄ he₄ => ?_
    have hrely₄ := (hrely₃.trans he₄.rely)
    have hmay : MayChange p r s₄ o u current (some role) := by
      refine ⟨((hknows.mono hrely₁).mono he₂.rely).mono hrely₄, fun hquiet => ?_,
        fun howner _ => ?_⟩
      · exact hentitled s₄ ((hrely₁.trans he₂.rely).trans hrely₄) hquiet
      · have ho₁ := (hknows.mono hrely₁).holds
        have ho₂ := he₂.rely.holds _ ho₁
        have hguarded₃ := ((hguarded howner).env ho₁ he₂).step ho₂ hrely₃ hlog id
        exact hguarded₃.env (hrely₃.holds _ ho₂) he₄
    rw [← hrow.1, ← hrow.2.1, ← hrow.2.2] at hmay
    exact ⟨.set hmay, fun _ _ _ _ _ _ => trivial, fun _ _ _ _ _ _ => trivial⟩
  unfold OrganizationService.write_role
  cases howner : current.any (·.is_owner) with
  | true =>
    exact wp_ensure_another_owner fun s₁ hrely hguarded _ => hwrite s₁ hrely fun _ => hguarded
  | false =>
    refine hwrite s (.refl p s) fun heq => ?_
    rw [heq] at howner
    cases howner

/-- An actor with the standing for a change is entitled to it when it is made. -/
theorem entitled_of_knows (hactor : actor_id ∈ r.acts)
    (hknows : Knows p s o actor_id (some actor_role))
    (hmanager : actor_role.is_manager = true)
    (hbefore : ∀ other ∈ current, actor_role.reaches other = true)
    (hafter : ∀ other ∈ after, actor_role.reaches other = true) (hrely : MemberRely p s s')
    (hquiet : Undisturbed s'.log) :
    ∃ actor_id ∈ r.acts, s'.db.Entitled o actor_id u current after :=
  ⟨actor_id, hactor, .inr ⟨actor_role, (hknows.mono hrely).exact hquiet, hmanager, hbefore, hafter⟩⟩

theorem wp_require_manager {f : Unit → Code OrganizationError α}
    (h : role.is_manager = true →
      (memberLogic P G db₀ turnover).wp p r (f ()) (fun _ _ => True) s) :
    (memberLogic P G db₀ turnover).wp p r (OrganizationService.require_manager role >>= f)
      (fun _ _ => True) s := by
  unfold OrganizationService.require_manager
  split
  · next hmanager => exact h hmanager
  · exact fun _ _ => trivial

theorem wp_require_reaches {other : OrganizationRole} {f : Unit → Code OrganizationError α}
    (h : role.reaches other = true →
      (memberLogic P G db₀ turnover).wp p r (f ()) (fun _ _ => True) s) :
    (memberLogic P G db₀ turnover).wp p r (OrganizationService.require_reaches role other >>= f)
      (fun _ _ => True) s := by
  unfold OrganizationService.require_reaches
  split
  · next hreaches => exact h hreaches
  · exact fun _ _ => trivial

/-- A commit that writes nothing. -/
theorem wp_commit_nil : (memberLogic P G db₀ turnover).wp p r
    (ask (.commit []) : Code OrganizationError Unit) (fun _ _ => True) s :=
  wp_of_memberPre (Script.issues_query fun _ _ => .other fun _ hw => absurd hw List.not_mem_nil)

theorem member_issues : (OrganizationService.member o u).Issues
    fun q => ∀ r s, MemberPre turnover p r s q := by
  refine (Script.issues_query fun _ _ => trivial).bind fun found => ?_
  cases found <;> trivial

theorem wp_add_member_tx (hactor : actor_id ∈ r.acts) (hs : MemberInv db₀ turnover s) :
    (memberLogic P G db₀ turnover).wp p r (OrganizationService.add_member_tx o u role actor_id)
      (fun _ _ => True) s := by
  refine wp_transaction (fun _ => trivial) (fun _ => trivial) hs fun now s₁ _ => ?_
  refine wp_lock fun s₂ ho _ => ?_
  refine wp_locked_role ho fun actor_role s₃ hrely₃ hactor₃ _ => ?_
  refine wp_require_manager fun hmanager => wp_require_reaches fun hrole => ?_
  refine wp_role_of hactor₃.holds fun existing s₄ hrely₄ hknows hs₄ => ?_
  have hafter : ∀ other ∈ some role, actor_role.reaches other = true := by
    rintro other ⟨⟩
    exact hrole
  have hactor₄ := hactor₃.mono hrely₄
  cases existing with
  | none =>
    refine Logic.wp_seq hs₄ ?_ fun _ _ _ _ _ => trivial
    exact wp_write_role hknows fun s' hrely hquiet =>
      entitled_of_knows hactor hactor₄ hmanager nofun hafter hrely hquiet
  | some current =>
    refine wp_require_reaches fun hcurrent => ?_
    have hbefore : ∀ other ∈ some current, actor_role.reaches other = true := by
      rintro other ⟨⟩
      exact hcurrent
    split
    · exact Logic.wp_seq hs₄ wp_commit_nil fun _ _ _ _ _ => trivial
    · refine Logic.wp_seq hs₄ ?_ fun _ _ _ _ _ => trivial
      exact wp_write_role hknows fun s' hrely hquiet =>
        entitled_of_knows hactor hactor₄ hmanager hbefore hafter hrely hquiet

theorem wp_add_member {email : String} (hactor : actor_id ∈ r.acts)
    (hs : MemberInv db₀ turnover s) :
    (memberLogic P G db₀ turnover).wp p r (OrganizationService.add_member d o email role actor_id)
      (fun _ _ => True) s := by
  have hfind : (IdentityService.user_id_by_email d email).Issues
      fun q => ∀ r s, MemberPre turnover p r s q := by
    refine (Script.issues_query fun _ _ => trivial).bind fun found => ?_
    cases found <;> trivial
  refine Logic.wp_seq hs (wp_of_memberPre hfind.mapError) fun found s₁ hs₁ => ?_
  cases found with
  | none => exact fun _ _ => trivial
  | some user_id =>
    refine Logic.wp_seq hs₁ (wp_add_member_tx hactor hs₁) fun existing s₂ _ => ?_
    exact wp_of_memberPre (member_issues.bind fun _ => trivial)

theorem wp_set_member_role (hactor : actor_id ∈ r.acts) (hs : MemberInv db₀ turnover s) :
    (memberLogic P G db₀ turnover).wp p r (OrganizationService.set_member_role o u role actor_id)
      (fun _ _ => True) s := by
  refine Logic.wp_seq hs ?_ fun _ _ _ => wp_of_memberPre member_issues
  refine wp_transaction (fun _ => trivial) (fun _ => trivial) hs fun now s₁ _ => ?_
  refine wp_lock fun s₂ ho _ => ?_
  refine wp_locked_role ho fun actor_role s₃ hrely₃ hactor₃ _ => ?_
  refine wp_require_manager fun hmanager => ?_
  refine wp_role_of hactor₃.holds fun existing s₄ hrely₄ hknows _ => ?_
  cases existing with
  | none => exact fun _ _ => trivial
  | some current =>
    refine wp_require_reaches fun hcurrent => wp_require_reaches fun hrole => ?_
    split
    · exact wp_commit_nil
    · refine wp_write_role hknows fun s' hrely hquiet =>
        entitled_of_knows hactor (hactor₃.mono hrely₄) hmanager ?_ ?_ hrely hquiet
      · rintro other ⟨⟩
        exact hcurrent
      · rintro other ⟨⟩
        exact hrole

theorem wp_remove_member (hactor : actor_id ∈ r.acts) (hs : MemberInv db₀ turnover s) :
    (memberLogic P G db₀ turnover).wp p r (OrganizationService.remove_member o u actor_id)
      (fun _ _ => True) s := by
  refine wp_transaction (fun _ => trivial) (fun _ => trivial) hs fun _ s₁ _ => ?_
  refine wp_lock fun s₂ ho _ => ?_
  refine wp_locked_role ho fun actor_role s₃ hrely₃ hactor₃ _ => ?_
  refine wp_role_of hactor₃.holds fun existing s₄ hrely₄ hknows _ => ?_
  have hactor₄ := hactor₃.mono hrely₄
  cases existing with
  | none => exact fun _ _ => trivial
  | some current =>
    -- What is left once the standing and the other owners have been looked at.
    have hremove : ∀ s₅, MemberRely p s₄ s₅ →
        (∀ s', MemberRely p s₄ s' → Undisturbed s'.log →
          ∃ actor_id ∈ r.acts, s'.db.Entitled o actor_id u (some current) none) →
        (current = .owner → Guarded p s₅ o u) →
        (memberLogic P G db₀ turnover).wp p r (do
          let _ ← OrganizationService.member o u
          let _ ← ask (.organizations (.remove_member o u))
          ask (.commit [.remove_member o u]) : Code OrganizationError Unit)
          (fun _ _ => True) s₅ := by
      intro s₅ hrely₅ hentitled hguarded
      have hknows₅ := hknows.mono hrely₅
      rw [OrganizationService.member, Script.bind_assoc]
      refine wp_prepare (by trivial) fun found s₆ s₇ he₆ hrely₇ _ hlog₇ _ => ?_
      cases found with
      | none => exact fun _ _ => trivial
      | some m =>
        refine wp_prepare (by trivial) fun gone s₈ s₉ he₈ hrely₉ _ hlog₉ _ => ?_
        have hknows₆ := hknows₅.mono he₆.rely
        have hknows₇ := hknows₆.mono hrely₇
        have hknows₈ := hknows₇.mono he₈.rely
        refine Logic.wp_query fun s₁₀ he₁₀ => ?_
        have hrely₁₀ : MemberRely p s₄ s₁₀ :=
          ((((hrely₅.trans he₆.rely).trans hrely₇).trans he₈.rely).trans hrely₉).trans he₁₀.rely
        refine ⟨.remove ⟨hknows.mono hrely₁₀, hentitled s₁₀ hrely₁₀, fun howner _ => ?_⟩,
          fun _ _ _ _ _ _ => trivial, fun _ _ _ _ _ _ => trivial⟩
        have hguarded₇ := ((hguarded (Option.some.inj howner)).env hknows₅.holds he₆).step
          hknows₆.holds hrely₇ hlog₇ id
        have hguarded₉ := (hguarded₇.env hknows₇.holds he₈).step hknows₈.holds hrely₉ hlog₉ id
        exact hguarded₉.env (hknows₈.mono hrely₉).holds he₁₀
    have hguard : (∀ s', MemberRely p s₄ s' → Undisturbed s'.log →
          ∃ actor_id ∈ r.acts, s'.db.Entitled o actor_id u (some current) none) →
        (memberLogic P G db₀ turnover).wp p r (do
          when current.is_owner (OrganizationService.ensure_another_owner o)
          let _ ← OrganizationService.member o u
          let _ ← ask (.organizations (.remove_member o u))
          ask (.commit [.remove_member o u]) : Code OrganizationError Unit)
          (fun _ _ => True) s₄ := by
      intro hentitled
      cases howner : current.is_owner with
      | true =>
        exact wp_ensure_another_owner fun s₅ hrely₅ hguarded _ =>
          hremove s₅ hrely₅ hentitled fun _ => hguarded
      | false =>
        refine hremove s₄ (.refl p s₄) hentitled fun heq => ?_
        rw [heq] at howner
        cases howner
    by_cases hself : u = actor_id
    · have hleaves : decide (u ≠ actor_id) = false := decide_eq_false (not_not.mpr hself)
      dsimp only
      rw [hleaves]
      exact hguard fun s' _ _ => ⟨actor_id, hactor, .inl ⟨hself, rfl⟩⟩
    · have hother : decide (u ≠ actor_id) = true := decide_eq_true hself
      dsimp only
      rw [hother, when, if_pos rfl, Script.bind_assoc]
      refine wp_require_manager fun hmanager => wp_require_reaches fun hcurrent => ?_
      refine hguard fun s' hrely hquiet =>
        entitled_of_knows hactor hactor₄ hmanager ?_ (by simp) hrely hquiet
      rintro other ⟨⟩
      exact hcurrent

/-- An id that `p` was given stays its own. -/
theorem heldOrganization_of_others {id : Uuid} (h : organizationNames.Held p id s.log)
    (he : Others p s s') :
    organizationNames.Held p id s'.log := by
  refine (he.since_iff (fun e hg => ?_) fun e hu => ?_).mpr h
  · unfold organizationNames at hg
    dsimp only at hg
    split at hg
    · exact hg.1
    · exact hg.elim
  · unfold organizationNames at hu
    dsimp only at hu
    split at hu
    · exact hu.1
    · exact hu.elim

theorem wp_create_organization {name : String} (hturnover : turnover)
    (hs : MemberInv db₀ turnover s) :
    (memberLogic P G db₀ turnover).wp p r (OrganizationService.create name actor_id)
      (fun _ _ => True) s := by
  refine wp_transaction (fun _ => trivial) (fun _ => trivial) hs fun now s₁ _ => ?_
  refine wp_prepare (by trivial) fun org s₂ s₃ _ _ _ hlog₃ _ => ?_
  refine wp_prepare (by trivial) fun m s₄ s₅ he₄ _ hrun hlog₅ _ => ?_
  have hrow : m.organization_id = org.id ∧ m.role = .owner := by
    obtain ⟨c, db, hrun, -⟩ := hrun
    simp only [OrganizationStmt.run] at hrun
    (repeat' split at hrun) <;> cases hrun
    exact ⟨rfl, rfl⟩
  have hheld₃ : organizationNames.Held p org.id s₃.log := by
    rw [hlog₃]
    exact .inl ⟨rfl, rfl⟩
  have hheld₅ : organizationNames.Held p org.id s₅.log := by
    rw [hlog₅]
    exact .inr ⟨id, heldOrganization_of_others hheld₃ he₄.others⟩
  refine Logic.wp_query_bind fun s₆ he₆ =>
    ⟨.create hturnover hrow.1 hrow.2 (heldOrganization_of_others hheld₅ he₆.others),
    fun _ _ _ _ => fun _ _ => trivial, fun _ _ _ _ _ _ => trivial⟩

theorem wp_delete_organization (hturnover : turnover) :
    (memberLogic P G db₀ turnover).wp p r (OrganizationService.delete o actor_id)
      (fun _ _ => True) s := by
  refine wp_of_memberPre (Script.Issues.bind ?_ fun standing => Script.Issues.bind ?_ fun _ => ?_)
  · refine (Script.issues_query fun _ _ => trivial).bind fun found => ?_
    cases found with
    | none => trivial
    | some row =>
      dsimp only
      split <;> trivial
  · unfold OrganizationService.require_owner
    split <;> trivial
  · refine (Script.issues_query fun _ _ => hturnover).bind fun found => ?_
    cases found <;> trivial

theorem wp_delete_account {confirm_email : String} (hturnover : turnover) :
    (memberLogic P G db₀ turnover).wp p r
    (IdentityService.delete_account d u confirm_email actor_id)
      (fun _ _ => True) s := by
  refine wp_of_memberPre ?_
  unfold IdentityService.delete_account
  generalize normalize_email d.platform confirm_email = confirmed
  split
  · trivial
  · refine Script.Issues.bind ?_ fun user => ?_
    · refine (Script.issues_query fun _ _ => trivial).bind fun found => ?_
      cases found <;> trivial
    · split
      · trivial
      · refine Script.Issues.bind ?_ fun found => ?_
        · refine (Script.issues_attempt fun _ _ => trivial).bind fun found => ?_
          rcases found with e | found
          · trivial
          · cases found with
            | false => trivial
            | true =>
              refine (Script.issues_attempt fun _ _ => hturnover).bind fun found => ?_
              rcases found with e | found <;> trivial
        · cases found <;> trivial

end Scripts

end SubmitSnap
