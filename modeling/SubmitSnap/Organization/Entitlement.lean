import SubmitSnap.Organization.Membership

/-!
# Who may change a membership

A membership change decides on the actor's role and the target's, both read after the organization
was locked, and is written before the lock goes. So what the decision was based on is the state the
change is applied to, and in every run each change is one its actor is entitled to there. Since
admins do not reach owners, nobody but owners makes or unmakes one, except that an owner may leave.

## The argument

The check and the write are several statements apart, and what the check has read is exactly what
the lock keeps (see the logic of membership changes). In the runs of this module no account is
deleted and no organization comes or goes, so the members are just what was read, and a commit
finds the roles that its request has decided on. The rest is a case distinction: what a single
commit does to a single role, set against what the handler has required of the two roles before.

That owners are made and unmade by owners alone is then a matter of the order of roles: who is
entitled to a change is in reach of both roles it goes between, and nobody but an owner reaches an
owner. The one exception is built in, and it is leaving.

## Main results

* `membershipEntitled_of_reaches` — every change is one its actor is entitled to.
-/

namespace SubmitSnap

open Interleave

/-- The event changes the role of an account in an organization, from one state before to the next
one after. That it is a commit is no assumption: no other statement of these runs changes a role,
as `MembershipEntitled.recorded` says. -/
def ChangesRole (o u : Uuid) (before after : Option OrganizationRole) : Event → Prop
  | ⟨_, _, db, .commit ws, .ok ()⟩ =>
    before ≠ after ∧ db.role_in o u = before ∧ (Write.applyAll db ws).role_in o u = after
  | _ => False

/-- Nobody who owns the organization changes a membership in it, except to leave. -/
def NoOwnerActs (o : Uuid) (log : List Event) : Prop :=
  ∀ e ∈ log, ∀ u before after, ChangesRole o u before after e → ∀ actor_id ∈ e.req.acts,
    e.before.role_in o actor_id ≠ some .owner ∨ (u = actor_id ∧ after = none)

/-- Every change of a membership, from the state the run began in, was one its actor was entitled to
in the state it was applied to. -/
structure MembershipEntitled (db₀ : Database) (s : State) : Prop where
  entitled : ∀ e ∈ s.log, ∀ o u before after, ChangesRole o u before after e →
    ∃ actor_id ∈ e.req.acts, e.before.Entitled o actor_id u before after
  /-- Every change is on the trace. -/
  recorded : ∀ o u, (∀ e ∈ s.log, ∀ before after, ¬ ChangesRole o u before after e) →
    s.db.role_in o u = db₀.role_in o u
  /-- Admins and members make no owner. -/
  none_made : ∀ o, NoOwnerActs o s.log → ∀ u, s.db.role_in o u = some .owner →
    db₀.role_in o u = some .owner
  /-- And they unmake none: one who is no longer an owner has left. -/
  none_unmade : ∀ o, NoOwnerActs o s.log → ∀ u, db₀.role_in o u = some .owner →
    s.db.role_in o u = some .owner ∨
      ∃ e ∈ s.log, ChangesRole o u (some .owner) none e ∧ u ∈ e.req.acts

/-- The requests that change memberships. -/
def Request.changesMembership : Request → Prop
  | add_member _ _ _ _ | set_member_role _ _ _ _ | remove_member _ _ _ => True
  | _ => False

section Entitled

variable {d : Deployment} {G : Regime} {p : ℕ} {r : Request} {q : Stmt} {x : Except Failure q.Reply}
  {s s' : State} {db₀ : Database} {o u : Uuid} {before after : Option OrganizationRole}

/-- What a commit changes is what it was made for. -/
theorem MayCommit.entitled {ws : List Write} (h : MayCommit False p r s ws)
    (hquiet : Undisturbed s.log)
    (hchange : s.db.role_in o u ≠ (Write.applyAll s.db ws).role_in o u) :
    ∃ actor_id ∈ r.acts, s.db.Entitled o actor_id u (s.db.role_in o u)
      ((Write.applyAll s.db ws).role_in o u) := by
  cases h with
  | other h =>
    have hsame : SameMembership o s.db (Write.applyAll s.db ws) :=
      Write.applyAll_membership fun w hw heq => by
        rw [h w hw] at heq
        cases heq
    exact absurd (hsame.role_in u).symm hchange
  | create hturnover => exact hturnover.elim
  | @set row current h =>
    rw [Write.applyAll_cons, Write.applyAll_nil, Database.role_in_upsert] at hchange ⊢
    by_cases hkey : row.organization_id = o ∧ row.user_id = u
    · obtain ⟨rfl, rfl⟩ := hkey
      rw [if_pos ⟨rfl, rfl⟩, h.knows.exact hquiet]
      exact h.entitled hquiet
    · rw [if_neg hkey] at hchange
      exact absurd rfl hchange
  | @remove o' u' current h =>
    rw [Write.applyAll_cons, Write.applyAll_nil, Database.role_in_remove] at hchange ⊢
    by_cases hkey : o' = o ∧ u' = u
    · obtain ⟨rfl, rfl⟩ := hkey
      rw [if_pos ⟨rfl, rfl⟩, h.knows.exact hquiet]
      exact h.entitled hquiet
    · rw [if_neg hkey] at hchange
      exact absurd rfl hchange

/-- One who is entitled to make or unmake an owner is one, or leaves. -/
theorem Database.Entitled.of_not_owner {db : Database} {actor_id : Uuid}
    (h : db.Entitled o actor_id u before after)
    (hactor : db.role_in o actor_id ≠ some .owner ∨ (u = actor_id ∧ after = none)) :
    (u = actor_id ∧ after = none) ∨ (before ≠ some .owner ∧ after ≠ some .owner) := by
  rcases h with hleaves | ⟨role, hrole, hmanager, hbefore, hafter⟩
  · exact .inl hleaves
  · rcases hactor with hnot | hleaves
    · right
      cases role with
      | owner => exact absurd hrole hnot
      | member => cases hmanager
      | admin =>
        refine ⟨fun heq => ?_, fun heq => ?_⟩
        · cases hbefore .owner heq
        · cases hafter .owner heq
    · exact .inl hleaves

/-- What a statement of a membership change does to the roles. -/
theorem role_in_of_effect (hpre : MemberPre False p r s q)
    (h : G.Effect (store d.platform) p r q s x s') (o u : Uuid) :
    s'.db.role_in o u = s.db.role_in o u ∨
      ChangesRole o u (s.db.role_in o u) (s'.db.role_in o u) ⟨p, r, s.db, q, x⟩ := by
  cases h with
  | fail _ => exact .inl rfl
  | @run c db' x _ hrun =>
    cases Stmt.membershipStep hrun with
    | idle hmembers _ => exact .inl (Database.role_in_congr hmembers)
    | account_deleted _ _ => exact hpre.elim
    | organization_deleted _ _ _ => exact hpre.elim
    | committed _ hmembers =>
      by_cases hsame : db'.role_in o u = s.db.role_in o u
      · exact .inl hsame
      · exact .inr ⟨fun heq => hsame heq.symm, rfl, (Database.role_in_congr hmembers).symm⟩

/-- A change that is recorded is one its actor is entitled to. -/
theorem entitled_of_changesRole (hpre : MemberPre False p r s q) (hquiet : Undisturbed s.log)
    (h : ChangesRole o u before after ⟨p, r, s.db, q, x⟩) :
    ∃ actor_id ∈ r.acts, s.db.Entitled o actor_id u before after := by
  unfold ChangesRole at h
  split at h
  · next heq =>
    cases heq
    obtain ⟨hne, rfl, rfl⟩ := h
    exact MayCommit.entitled hpre hquiet hne
  · exact h.elim

/-- What changes where no owner acts but to leave: somebody leaves, or no owner is made or
unmade. -/
theorem limited_of_noOwnerActs (hpre : MemberPre False p r s q) (hquiet : Undisturbed s.log)
    (h : G.Effect (store d.platform) p r q s x s') (hacts : NoOwnerActs o s'.log)
    (hne : s'.db.role_in o u ≠ s.db.role_in o u) :
    (s'.db.role_in o u = none ∧ u ∈ r.acts ∧
        ChangesRole o u (s.db.role_in o u) none ⟨p, r, s.db, q, x⟩) ∨
      (s.db.role_in o u ≠ some .owner ∧ s'.db.role_in o u ≠ some .owner) := by
  have hchange := (role_in_of_effect hpre h o u).resolve_left hne
  obtain ⟨actor_id, hactor, hentitled⟩ := entitled_of_changesRole hpre hquiet hchange
  have hactor' := hacts _ (h.log_eq ▸ List.mem_cons_self) u _ _ hchange actor_id hactor
  rcases hentitled.of_not_owner hactor' with ⟨rfl, hnone⟩ | hneither
  · rw [hnone] at hchange
    exact .inl ⟨hnone, hactor, hchange⟩
  · exact .inr hneither

/-- **The step**: every statement keeps to what its actor is entitled to. -/
theorem membershipEntitled_of_effect (hs : MemberInv db₀ False s) (hpre : MemberPre False p r s q)
    (hI : MembershipEntitled db₀ s) (h : G.Effect (store d.platform) p r q s x s') :
    MembershipEntitled db₀ s' := by
  have hquiet := hs.undisturbed id
  have hlog := h.log_eq
  have htail : ∀ {o}, NoOwnerActs o s'.log → NoOwnerActs o s.log := fun hacts e he =>
    hacts e (h.mem he)
  refine ⟨fun e he o u before after hchange => ?_, fun o u hnone => ?_, fun o hacts u howner => ?_,
    fun o hacts u howner => ?_⟩
  · rw [hlog] at he
    rcases List.mem_cons.mp he with rfl | he
    · exact entitled_of_changesRole hpre hquiet hchange
    · exact hI.entitled e he o u before after hchange
  · rcases role_in_of_effect hpre h o u with hsame | hchange
    · exact hsame.trans (hI.recorded o u fun e he => hnone e (h.mem he))
    · exact absurd hchange (hnone _ h.mem_self _ _)
  · by_cases hsame : s'.db.role_in o u = s.db.role_in o u
    · exact hI.none_made o (htail hacts) u (hsame.symm.trans howner)
    · rcases limited_of_noOwnerActs hpre hquiet h hacts hsame with ⟨hnone, -⟩ | ⟨-, hnot⟩
      · rw [howner] at hnone
        cases hnone
      · exact absurd howner hnot
  · rcases hI.none_unmade o (htail hacts) u howner with howner | ⟨e, he, hleft⟩
    · by_cases hsame : s'.db.role_in o u = s.db.role_in o u
      · exact .inl (hsame.trans howner)
      · rcases limited_of_noOwnerActs hpre hquiet h hacts hsame with ⟨-, hself, hchange⟩ | ⟨hnot, -⟩
        · rw [howner] at hchange
          exact .inr ⟨_, h.mem_self, hchange, hself⟩
        · exact absurd howner hnot
    · exact .inr ⟨e, h.mem he, hleft⟩

/-- Where a run begins. -/
theorem MembershipEntitled.start : MembershipEntitled db₀ ⟨db₀, []⟩ where
  entitled _ he := absurd he List.not_mem_nil
  recorded _ _ _ := rfl
  none_made _ _ _ howner := howner
  none_unmade _ _ _ howner := .inl howner

theorem wp_changesMembership (hr : r.changesMembership) (hs : MemberInv db₀ False s) :
    (memberLogic d.platform G db₀ False).wp p r (Request.code d r) (fun _ _ => True) s := by
  unfold Request.changesMembership at hr
  split at hr
  · exact wp_add_member rfl hs
  · exact wp_set_member_role rfl hs
  · exact wp_remove_member rfl hs
  · exact hr.elim

end Entitled

/-- **Every change is one its actor is entitled to**, whatever requests overlap. -/
theorem membershipEntitled_of_reaches {d : Deployment} {db : Database} {w : World}
    (hlocks : db.locks.Exclusive) (hissued : ∀ org ∈ db.organizations.rows, org.id ∈ db.issued)
    (h : Reaches d (Regime.free Request.changesMembership) (World.start db) w) :
    MembershipEntitled db w.shared := by
  have hspec : ∀ p r s, Request.changesMembership r →
      (memberLogic d.platform (Regime.free Request.changesMembership) db False).inv s →
      (∀ e ∈ s.log, e.pid ≠ p) →
      (memberLogic d.platform (Regime.free Request.changesMembership) db False).wp p r
        (Request.code d r) (fun _ _ => True) s :=
    fun _ _ _ hr hs _ => wp_changesMembership hr hs
  exact Logic.inv_of_reaches hspec (.start (MemberInv.start hlocks hissued)) .start
    (fun hs hpre hI h => membershipEntitled_of_effect hs hpre hI h)
    (fun _ hI => ⟨hI.entitled, hI.recorded, hI.none_made, hI.none_unmade⟩)
    (fun hI => ⟨hI.entitled, hI.recorded, hI.none_made, hI.none_unmade⟩) h

instance (o u : Uuid) (before after : Option OrganizationRole) :
    DecidablePred (ChangesRole o u before after) := fun ⟨_, _, _, q, reply⟩ => by
  induction q using Stmt.casesOn with
  | commit => induction reply using Except.casesOn <;> (delta ChangesRole; infer_instance)
  | _ => delta ChangesRole; infer_instance

instance : DecidablePred Request.changesMembership := fun r => by
  delta Request.changesMembership
  split <;> infer_instance

/-- Two owners demote each other, and the second has to wait for the first. -/
def demoteEachOther : List Step :=
  [.spawn 0 (.set_member_role 1 8 .member 9), .spawn 1 (.set_member_role 1 9 .member 8), .step 0 {},
    .step 1 {}, .step 0 {}, .step 0 {}, .step 0 {}, .step 0 {}, .step 0 {}, .step 0 {}, .step 1 {},
    .step 1 {}, .step 1 {}]

/-- The second is no owner by the time it looks. -/
theorem membershipEntitled_demoteEachOther :
    let s := (Deployment.sample.play (Regime.free Request.changesMembership) demoteEachOther
      .sample).shared
    (∃ e ∈ s.log, ChangesRole 1 8 (some .owner) (some .member) e) ∧
      s.db.role_in 1 9 = some .owner ∧ MembershipEntitled .sample s :=
  ⟨by decide +kernel, by decide +kernel,
    membershipEntitled_of_reaches Locks.exclusive_nil (by decide)
      (Deployment.sample.reaches_play (Regime.free Request.changesMembership) demoteEachOther
        .sample)⟩

end SubmitSnap
