import SubmitSnap.Organization.Membership

/-!
# Every organization has an owner

Two guards keep an organization from losing its last owner. A membership change counts the owners
under the organization's lock; the deletion of an account asks a trigger, before its cascade removes
the memberships. The trigger takes no lock on the organizations it looks at, and the deletion none
either, so each guard can be overtaken by a deletion: two owners' accounts that are deleted at the
same time are each other's successor, and the count of a membership change may include an owner
whose account is about to go.

## The argument

The invariant is the property itself. A statement can break it in two ways only, since all others
leave the members alone: a commit that takes the ownership of a last owner, or a deletion of the
account of one. For a commit, the code has counted the other owners under the lock; the count
stands unless an account was deleted in between, and `overtakesGuard` says when that has happened.
For a deletion, the trigger has looked; what it saw may be gone by the time the cascade runs,
since it locks nothing, and `overtakesGuard` says this directly of the state before the delete. A
new organization comes with its owner in the same commit.

So the runs in which no guard is overtaken keep the invariant, whatever else they do. Both ways of
overtaking a guard really occur: two owners who delete their accounts at the same time each find
the other.

## Main results

* `everyOrganizationOwned_of_reaches` — an owner remains in the runs in which no guard is overtaken.
* `not_everyOrganizationOwned` — two co-owners are deleted at the same time.
-/

namespace SubmitSnap

open Interleave

/-- Every organization has an owner. -/
def EveryOrganizationOwned (db : Database) : Prop :=
  ∀ org ∈ db.organizations.rows, ∃ m ∈ db.organization_members.rows,
    m.organization_id = org.id ∧ m.role = .owner

/-- The write takes the ownership of an organization's only owner. -/
def Write.takesLastOwner (db : Database) : Write → Prop
  | .organization_member row =>
    row.role ≠ .owner ∧ db.role_in row.organization_id row.user_id = some .owner ∧
      ¬ db.OtherOwner row.organization_id row.user_id
  | .remove_member organization_id user_id =>
    db.role_in organization_id user_id = some .owner ∧ ¬ db.OtherOwner organization_id user_id
  | _ => False

/-- A guard no longer holds when the write it guards takes effect: an organization of the account
has lost its other owners since the trigger looked; or a membership change takes the last owner of
those it has counted, because an account has been deleted since. -/
def overtakesGuard (p : ℕ) (s : State) : Stmt → Prop
  | .users (.delete_apply user_id) => s.db.orphaned user_id ≠ []
  | .commit ws =>
    Since DeletesAccount (CountsOwners p) s.log ∧ ∃ w ∈ ws, w.takesLastOwner s.db
  | _ => False

/-- The requests that create and delete organizations, change memberships, and delete accounts. -/
def Request.movesOwners : Request → Prop
  | create_organization _ _ | delete_organization _ _ | add_member _ _ _ _ | set_member_role _ _ _ _
  | remove_member _ _ _ | administer (.delete _ _) _ => True
  | _ => False

/-- The runs in which every guard holds until its write. -/
abbrev guardsHold : Regime :=
  (Regime.free Request.movesOwners).avoiding fun p _ q s => overtakesGuard p s q

section Owned

variable {d : Deployment} {p : ℕ} {r : Request} {q : Stmt} {x : Except Failure q.Reply}
  {s s' : State} {db db' db₀ : Database}

theorem everyOrganizationOwned_iff : EveryOrganizationOwned db ↔
    ∀ o, db.organizations.hasKey o = true → ∃ u, db.role_in o u = some .owner := by
  constructor
  · intro h o ho
    obtain ⟨org, horg, rfl⟩ := Table.hasKey_iff.mp ho
    obtain ⟨m, hm, horganization, hrole⟩ := h org horg
    exact ⟨m.user_id, Database.role_in_eq_some.mpr ⟨m, hm, horganization, rfl, hrole⟩⟩
  · intro h org horg
    obtain ⟨u, hu⟩ := h org.id (Table.hasKey_iff.mpr ⟨org, horg, rfl⟩)
    obtain ⟨m, hm, horganization, -, hrole⟩ := Database.role_in_eq_some.mp hu
    exact ⟨m, hm, horganization, hrole⟩

/-- A membership that is taken leaves an owner, if it was not the last. -/
theorem owner_remains {o u : Uuid} (howned : ∃ v, db.role_in o v = some .owner)
    (hothers : ∀ v, v ≠ u → db'.role_in o v = db.role_in o v)
    (hlast : db.role_in o u = some .owner → db.OtherOwner o u) :
    ∃ v, db'.role_in o v = some .owner := by
  obtain ⟨v, hv⟩ := howned
  by_cases hvu : v = u
  · subst hvu
    obtain ⟨v', hne, hv'⟩ := Database.otherOwner_iff.mp (hlast hv)
    exact ⟨v', (hothers v' hne).trans hv'⟩
  · exact ⟨v, (hothers v hvu).trans hv⟩

/-- The guard of a membership change, where it has not been overtaken. -/
theorem MayChange.otherOwner {o u : Uuid} {current after : Option OrganizationRole}
    (h : MayChange p r s o u current after) (hafter : after ≠ some .owner)
    (hlast : ¬ (Since DeletesAccount (CountsOwners p) s.log ∧ s.db.role_in o u = some .owner ∧
      ¬ s.db.OtherOwner o u)) (howner : s.db.role_in o u = some .owner) : s.db.OtherOwner o u := by
  by_cases hsince : Since DeletesAccount (CountsOwners p) s.log
  · by_contra hnone
    exact hlast ⟨hsince, howner, hnone⟩
  · exact h.guarded (h.knows.at_most _ howner) hafter hsince

/-- A commit leaves every organization an owner. -/
theorem MayCommit.owned {ws : List Write} (h : MayCommit True p r s ws)
    (hguard : ¬ overtakesGuard p s (.commit ws)) (howned : EveryOrganizationOwned s.db) {o : Uuid}
    (ho : (Write.applyAll s.db ws).organizations.hasKey o = true) :
    ∃ u, (Write.applyAll s.db ws).role_in o u = some .owner := by
  rw [everyOrganizationOwned_iff] at howned
  -- What does not concern the organization.
  have hother : (∀ w ∈ ws, w.belongs_to ≠ some o) →
      ∃ u, (Write.applyAll s.db ws).role_in o u = some .owner := by
    intro hws
    have hsame : SameMembership o s.db _ := Write.applyAll_membership hws
    obtain ⟨u, hu⟩ := howned o (hsame.hasKey.symm.trans ho)
    exact ⟨u, (hsame.role_in u).trans hu⟩
  cases h with
  | other h =>
    refine hother fun w hw heq => ?_
    rw [h w hw] at heq
    cases heq
  | @create org m _ horganization hrole _ =>
    by_cases heq : m.organization_id = o
    · refine ⟨m.user_id, ?_⟩
      rw [Write.applyAll_cons, Write.applyAll_cons, Write.applyAll_nil, Database.role_in_upsert,
        if_pos ⟨heq, rfl⟩, hrole]
    · refine hother fun w hw hbelongs => heq ?_
      rcases List.mem_cons.mp hw with rfl | hw
      · exact horganization.trans (Option.some.inj hbelongs)
      · obtain rfl := List.mem_singleton.mp hw
        exact Option.some.inj hbelongs
  | @set row current h =>
    by_cases heq : row.organization_id = o
    · subst heq
      by_cases howner : row.role = .owner
      · refine ⟨row.user_id, ?_⟩
        rw [Write.applyAll_cons, Write.applyAll_nil, Database.role_in_upsert, if_pos ⟨rfl, rfl⟩,
          howner]
      · refine owner_remains (howned _ ho) (u := row.user_id) (fun v hv => ?_) ?_
        · rw [Write.applyAll_cons, Write.applyAll_nil, Database.role_in_upsert,
            if_neg fun hkey => hv hkey.2.symm]
        · refine h.otherOwner (fun hsome => howner (Option.some.inj hsome)) fun hlast => ?_
          exact hguard ⟨hlast.1, _, List.mem_singleton.mpr rfl, howner, hlast.2⟩
    · refine hother fun w hw hbelongs => heq ?_
      obtain rfl := List.mem_singleton.mp hw
      exact Option.some.inj hbelongs
  | @remove o' u current h =>
    by_cases heq : o' = o
    · subst heq
      refine owner_remains (howned _ ho) (u := u) (fun v hv => ?_) ?_
      · rw [Write.applyAll_cons, Write.applyAll_nil, Database.role_in_remove,
          if_neg fun hkey => hv hkey.2.symm]
      · refine h.otherOwner nofun fun hlast => ?_
        exact hguard ⟨hlast.1, _, List.mem_singleton.mpr rfl, hlast.2⟩
    · refine hother fun w hw hbelongs => heq ?_
      obtain rfl := List.mem_singleton.mp hw
      exact Option.some.inj hbelongs

/-- Every statement leaves every organization an owner, where its guard holds. -/
theorem owned_of_effect (hpre : MemberPre True p r s q) (howned : EveryOrganizationOwned s.db)
    (h : guardsHold.Effect (store d.platform) p r q s x s') : EveryOrganizationOwned s'.db := by
  cases h with
  | fail _ => exact howned
  | @run c db' x hadmits hrun =>
    rw [everyOrganizationOwned_iff]
    intro o ho
    have hmem := everyOrganizationOwned_iff.mp howned
    change db'.organizations.hasKey o = true at ho
    change ∃ u, db'.role_in o u = some .owner
    cases Stmt.membershipStep hrun with
    | idle hmembers horganizations =>
      obtain ⟨u, hu⟩ := hmem o ((horganizations o).symm.trans ho)
      exact ⟨u, (Database.role_in_congr hmembers).trans hu⟩
    | @account_deleted gone _ horganizations hmembers =>
      rw [horganizations] at ho
      have horphaned : s.db.orphaned gone = [] := by
        by_contra hne
        exact hadmits.2 hne
      refine owner_remains (hmem o ho) (u := gone) (fun v hv => ?_) fun hrole => ?_
      · rw [Database.role_in_deleteWhere (fun _ u => u == gone) hmembers fun _ => rfl]
        simp [hv]
      · obtain ⟨org, horg, rfl⟩ := Table.hasKey_iff.mp ho
        exact Database.orphaned_eq_nil.mp horphaned org horg hrole
    | @organization_deleted gone _ _ horganizations hmembers =>
      rw [horganizations] at ho
      obtain ⟨org, horg, rfl⟩ := Table.hasKey_iff.mp ho
      obtain ⟨horg, hkept⟩ := Table.mem_deleteWhere.mp horg
      obtain ⟨u, hu⟩ := hmem org.id (Table.hasKey_iff.mpr ⟨org, horg, rfl⟩)
      refine ⟨u, ?_⟩
      rw [Database.role_in_deleteWhere (fun o _ => o == gone) hmembers fun _ => rfl, hkept]
      exact hu
    | committed horganizations hmembers =>
      rw [horganizations] at ho
      obtain ⟨u, hu⟩ := MayCommit.owned hpre hadmits.2 howned ho
      exact ⟨u, (Database.role_in_congr hmembers).trans hu⟩

/-- The requests keep to the logic. -/
theorem wp_movesOwners (hr : r.movesOwners) {G : Regime} (hs : MemberInv db₀ True s) :
    (memberLogic d.platform G db₀ True).wp p r (Request.code d r) (fun _ _ => True) s := by
  unfold Request.movesOwners at hr
  split at hr
  · exact wp_create_organization trivial hs
  · exact wp_delete_organization trivial
  · exact wp_add_member rfl hs
  · exact wp_set_member_role rfl hs
  · exact wp_remove_member rfl hs
  · exact wp_delete_account trivial
  · exact hr.elim

end Owned

/-- **An owner remains**, for every organization in every run in which no guard is overtaken. -/
theorem everyOrganizationOwned_of_reaches {d : Deployment} {db : Database} {w : World}
    (hlocks : db.locks.Exclusive) (hissued : ∀ org ∈ db.organizations.rows, org.id ∈ db.issued)
    (howned : EveryOrganizationOwned db) (h : Reaches d guardsHold (World.start db) w) :
    EveryOrganizationOwned w.shared.db := by
  have hspec : ∀ p r s, Request.movesOwners r →
      (memberLogic d.platform guardsHold db True).inv s → (∀ e ∈ s.log, e.pid ≠ p) →
      (memberLogic d.platform guardsHold db True).wp p r (Request.code d r) (fun _ _ => True) s :=
    fun _ _ _ hr hs _ => wp_movesOwners hr hs
  exact Logic.inv_of_reaches hspec (.start (MemberInv.start hlocks hissued))
    (I := fun s => EveryOrganizationOwned s.db) howned
    (fun _ hpre howned h => owned_of_effect hpre howned h)
    (fun _ howned => howned) (fun howned => howned) h

/-! ### Two deletions

Each deletion finds the other account as an owner who stays. Neither locks the organization, so
both go through. -/

instance : DecidablePred EveryOrganizationOwned := fun db =>
  inferInstanceAs (Decidable (∀ org ∈ db.organizations.rows,
    ∃ m ∈ db.organization_members.rows, m.organization_id = org.id ∧ m.role = .owner))

instance (db : Database) : DecidablePred (Write.takesLastOwner db) := fun w => by
  delta Write.takesLastOwner
  split <;> infer_instance

instance : DecidablePred DeletesAccount := fun e => by
  delta DeletesAccount
  split <;> infer_instance

instance (p : ℕ) : DecidablePred (CountsOwners p) := fun e => by
  delta CountsOwners
  split <;> infer_instance

instance (p : ℕ) (s : State) : DecidablePred (overtakesGuard p s) := fun q => by
  induction q using Stmt.casesOn with
  | users q => induction q using UserStmt.casesOn <;> (delta overtakesGuard; infer_instance)
  | _ => delta overtakesGuard; infer_instance

instance : DecidablePred Request.movesOwners := fun r => by
  induction r using Request.casesOn with
  | administer op =>
    induction op using AdminOp.casesOn <;> (delta Request.movesOwners; infer_instance)
  | _ => delta Request.movesOwners; infer_instance

/-- The accounts of both owners are deleted, and the trigger has passed both. -/
def bothDeleted : List Step :=
  [.spawn 0 (.administer (.delete 8 "ada@example.org") 9), .step 0 {}, .step 0 {},
    .spawn 1 (.administer (.delete 9 "ben@example.org") 8), .step 1 {}, .step 1 {}]

/-- **No owner remains**: each deletion has counted on the owner the other one deletes. -/
theorem not_everyOrganizationOwned : ¬ ∀ w, Reaches .sample (Regime.free Request.movesOwners)
    (World.start .sample) w → EveryOrganizationOwned w.shared.db := by
  intro hall
  have howned := hall _ (Deployment.sample.reaches_play _ (bothDeleted ++ [.step 0 {}, .step 1 {}])
    .sample)
  revert howned
  decide +kernel

/-- An owner is demoted, and another one cannot be removed. -/
def demotedThenDeleted : List Step :=
  [.spawn 0 (.set_member_role 1 8 .member 9), .step 0 {}, .step 0 {}, .step 0 {}, .step 0 {},
    .step 0 {}, .step 0 {}, .step 0 {}, .step 0 {}, .step 0 {},
    .spawn 1 (.administer (.delete 9 "ben@example.org") 8), .step 1 {}, .step 1 {},
    .spawn 2 (.administer (.delete 8 "ada@example.org") 9), .step 2 {}, .step 2 {}, .step 2 {}]

/-- One after the other, a demotion and two deletions leave an owner. -/
theorem everyOrganizationOwned_demotedThenDeleted :
    let db := (Deployment.sample.play guardsHold demotedThenDeleted .sample).shared.db
    db.users.rows.length = 1 ∧ db.role_in 1 9 = some .owner ∧ EveryOrganizationOwned db :=
  ⟨by decide +kernel, by decide +kernel,
    everyOrganizationOwned_of_reaches Locks.exclusive_nil (by decide) (by decide)
      (Deployment.sample.reaches_play guardsHold demotedThenDeleted .sample)⟩

end SubmitSnap
