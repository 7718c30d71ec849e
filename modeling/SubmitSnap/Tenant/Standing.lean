import SubmitSnap.Tenant.Confined

/-!
# Standing before change

A handler reads the caller's role once and acts on it, and the role may be gone by the time it does:
nothing locks it. What does hold is that nobody acts on a role they never had. Whenever a request
changes anything of what an organization has, there was a moment since it arrived at which the
account it was made for really had a role that allows the request: owner to delete the organization,
manager to change anything else, any role to leave.

The proof does not follow the role through the run, since it may change at any time. `standingLogic`
only asks that whatever a request does be a `Stmt.still` statement, or come after an answer that
named a role which allows the request. That answer is in the log for good, and it was true of the
database it was read from, which is a state of the run since the request arrived. A statement that
is not still needs the answer whether it ends up changing something or not, so a handler with a path
to a write around its check would not get past `wp_standing`.

## Main definitions

* `Request.allows` — the roles that a request can be made with.
* `Stmt.still` — the statements that change nothing of what an organization has.

## Main results

* `changed_with_standing` — a change was preceded by the standing for it.
-/

namespace SubmitSnap

open Interleave
open Interleave.Script

/-- The roles that a request can be made with. -/
def Request.allows : Request → OrganizationRole → Bool
  | delete_organization _ _, role => role.is_owner
  | remove_member _ target_id actor_id, role => target_id == actor_id || role.is_manager
  | _, role => role.is_manager

/-- The statements that change nothing of what an organization has: those that read, lock or
prepare, and the commit that writes nothing. -/
def Stmt.still : Stmt → Prop
  | organizations (.access _ _) | organizations (.lock _) | organizations (.role_of _ _)
  | organizations (.member_of _ _) | organizations (.upsert_member _ _ _ _)
  | organizations (.remove_member _ _) | organizations (.owner_count _)
  | users (.find_by_email _) | forms (.find _ _) | submissions (.find _ _)
  | submissions (.page_after _ _ _) | submissions (.distinct_answer_keys _)
  | begin_tx | rollback => True
  | commit writes => writes = []
  | _ => False

/-- `p` has seen that the account has that role in the organization. -/
inductive SeenRole (p : ℕ) (scope : Scope) (role : OrganizationRole) (log : List Event) : Prop where
  | access {r : Request} {before : Database} {row : AccessRow}
    (h : ⟨p, r, before, .organizations (.access scope.organization_id scope.actor_id),
      .ok (some row)⟩ ∈ log) (hrole : row.role = some role)
  | locked {r : Request} {before : Database}
    (h : ⟨p, r, before, .organizations (.role_of scope.organization_id scope.actor_id),
      .ok (some role)⟩ ∈ log)

/-- `p` has seen a role that allows the request. -/
def Allowed (p : ℕ) (r : Request) (scope : Scope) (log : List Event) : Prop :=
  ∃ role, SeenRole p scope role log ∧ r.allows role = true

/-- Before a request of an organization changes anything, it has seen a role that allows it. -/
def StandingPre (p : ℕ) (r : Request) (q : Stmt) (s : State) : Prop :=
  ∀ scope ∈ r.scope, q.still ∨ Allowed p r scope s.log

/-- The logic of requests that look at the caller's role first. -/
def standingLogic (P : Platform) (G : Regime) : Logic G (store P) := .ofPre StandingPre

section Facts

variable {P : Platform} {p : ℕ} {c : Choice} {db db' : Database} {q : Stmt}
  {x : Except Failure q.Reply} {scope : Scope} {role : OrganizationRole} {r : Request}
  {log log' : List Event}

theorem SeenRole.mono (h : SeenRole p scope role log) (hlog : ∀ e ∈ log, e ∈ log') :
    SeenRole p scope role log' := by
  cases h with
  | access h hrole => exact .access (hlog _ h) hrole
  | locked h => exact .locked (hlog _ h)

theorem Allowed.mono (h : Allowed p r scope log) (hlog : ∀ e ∈ log, e ∈ log') :
    Allowed p r scope log' := by
  obtain ⟨role, hseen, hallows⟩ := h
  exact ⟨role, hseen.mono hlog, hallows⟩

/-- A still statement leaves what every organization has as it was. -/
theorem Stmt.tenant_of_still (hq : q.still) (h : q.run P p c db = some (db', x)) (o : Uuid) :
    db'.tenant o = db.tenant o := by
  cases q with
  | organizations q =>
    cases q with
    | insert_organization _ _ | insert_owner _ _ _ | rename _ _ | delete _ => exact hq.elim
    | _ =>
      simp only [Stmt.run, OrganizationStmt.run] at h
      (repeat' split at h) <;> cases h <;> rfl
  | users q =>
    cases q with
    | find_by_email email =>
      cases h
      rfl
    | _ => exact hq.elim
  | forms q =>
    cases q with
    | find _ _ =>
      cases h
      rfl
    | _ => exact hq.elim
  | submissions q =>
    cases q with
    | find _ _ | page_after _ _ _ | distinct_answer_keys _ =>
      cases h
      rfl
    | _ => exact hq.elim
  | commit writes =>
    obtain rfl : writes = [] := hq
    cases h
    rfl
  | begin_tx | rollback =>
    cases h
    rfl
  | _ => exact hq.elim

end Facts

section Scripts

variable {P : Platform} {d : Deployment} {G : Regime} {p : ℕ} {r : Request} {s : State}
  {scope : Scope} {ε α : Type}

/-- Code that only looks. -/
theorem wp_of_still {x : Code ε α} (hx : x.Issues Stmt.still) :
    (standingLogic P G).wp p r x (fun _ _ => True) s :=
  Logic.wp_of_does Stmt.still (fun _ _ => True) (fun _ => True) (fun _ => True)
    (fun _ _ => trivial) (fun hq _ _ _ _ => .inl hq) (fun _ _ _ _ _ => ⟨trivial, trivial⟩)
    (fun _ _ => trivial) hx.does trivial

/-- Whoever has been seen to be allowed to may do anything. -/
theorem wp_of_allowed (hr : r.scope = some scope) (h : Allowed p r scope s.log) (x : Code ε α) :
    (standingLogic P G).wp p r x (fun _ _ => True) s := by
  refine Logic.wp_of_does (fun _ => True) (fun _ _ => True) (fun s => Allowed p r scope s.log)
    (fun _ => True) (fun h he => h.mono fun _ => he.others.mem)
    (fun {q s} _ _ h scope' hscope => ?_)
    (fun _ _ h hx _ => ⟨trivial, h.mono fun _ => hx.mem⟩) (fun _ _ => trivial)
    (issues_of_forall (fun _ => trivial) x).does h
  obtain rfl : scope = scope' := Option.some.inj (hr.symm.trans hscope)
  exact .inr h

/-- Who has resolved the caller's standing has seen the role. -/
theorem wp_access_seen (organization_id user_id : Uuid) :
    (standingLogic P G).wp p r (OrganizationService.access organization_id user_id)
      (fun y s' => ∀ standing, y = .ok standing →
        SeenRole p ⟨organization_id, user_id⟩ standing.role s'.log) s := by
  refine Logic.wp_query_bind fun s₁ he₁ => ⟨fun _ _ => .inl trivial, fun found s₂ hx₂ _ => ?_,
    fun _ _ _ _ _ _ => nofun⟩
  cases found with
  | none => exact fun _ _ _ => nofun
  | some row =>
    dsimp only
    split
    · exact fun _ _ _ => nofun
    · next role hrole =>
      intro s₃ he₃ standing hstanding
      cases hstanding
      exact .access (he₃.others.mem hx₂.mem_self) hrole

/-- What follows the caller's standing. -/
theorem wp_access_bind {organization_id actor_id : Uuid} {f : Access → Code OrganizationError α}
    (hf : ∀ standing s', SeenRole p ⟨organization_id, actor_id⟩ standing.role s'.log →
      (standingLogic P G).wp p r (f standing) (fun _ _ => True) s') :
    (standingLogic P G).wp p r (OrganizationService.access organization_id actor_id >>= f)
      (fun _ _ => True) s :=
  Logic.wp_bind trivial (wp_access_seen organization_id actor_id)
    (fun standing s' _ hseen => hf standing s' (hseen standing rfl)) fun _ _ _ _ => trivial

/-- Whoever is past the check has the role. -/
theorem wp_require_manager_standing {role : OrganizationRole} {f : Unit → Code OrganizationError α}
    (h : role.is_manager = true → (standingLogic P G).wp p r (f ()) (fun _ _ => True) s) :
    (standingLogic P G).wp p r (OrganizationService.require_manager role >>= f)
      (fun _ _ => True) s := by
  unfold OrganizationService.require_manager
  split
  · next hmanager => exact h hmanager
  · exact fun _ _ => trivial

/-- What follows the check that handlers of forms start with. -/
theorem wp_form_manager {organization_id actor_id : Uuid}
    (hr : r.scope = some ⟨organization_id, actor_id⟩)
    (hallows : ∀ role : OrganizationRole, role.is_manager = true → r.allows role = true)
    (rest : Unit → Code FormError α) :
    (standingLogic P G).wp p r (FormService.manager_access organization_id actor_id >>= rest)
      (fun _ _ => True) s := by
  unfold FormService.manager_access
  rw [Script.bind_assoc]
  refine Logic.wp_bind (Ψ := fun y s' => ∀ standing, y = .ok standing →
    SeenRole p ⟨organization_id, actor_id⟩ standing.role s'.log) trivial
    (Logic.wp_mapError (Logic.wp_mono (wp_access_seen organization_id actor_id) ?_))
    (fun standing s₁ _ hseen => ?_) fun _ _ _ _ => trivial
  · rintro (e | standing) s' _ h standing' heq
    · cases heq
    · cases heq
      exact h standing rfl
  unfold OrganizationService.require_manager
  split
  · next hmanager =>
    exact wp_of_allowed hr ⟨standing.role, hseen standing rfl, hallows _ hmanager⟩ _
  · exact fun _ _ => trivial

/-- What follows the check that handlers of endpoints start with. -/
theorem wp_webhook_manager {organization_id actor_id : Uuid}
    (hr : r.scope = some ⟨organization_id, actor_id⟩)
    (hallows : ∀ role : OrganizationRole, role.is_manager = true → r.allows role = true)
    (rest : Unit → Code WebhookError α) :
    (standingLogic P G).wp p r (WebhookService.manager_access organization_id actor_id >>= rest)
      (fun _ _ => True) s := by
  refine Logic.wp_bind (Ψ := fun y s' => y = .ok () →
    Allowed p r ⟨organization_id, actor_id⟩ s'.log) trivial (Logic.wp_mapError ?_)
    (fun _ s₁ _ hallowed => wp_of_allowed hr (hallowed rfl) _) fun _ _ _ _ => trivial
  refine Logic.wp_bind trivial (wp_access_seen organization_id actor_id)
    (fun standing s₁ _ hseen => ?_) fun _ _ _ _ heq => by cases heq
  unfold OrganizationService.require_manager
  split
  · next hmanager =>
    intro s₂ he₂ _
    exact Allowed.mono ⟨standing.role, hseen standing rfl, hallows _ hmanager⟩
      fun _ => he₂.others.mem
  · exact fun _ _ heq => by cases heq

/-! ### Members

The handlers on members read the caller's role in their transaction, where the organization is
locked, and not before it. For the result this makes no difference: an answer has named the role. -/

/-- The caller's role, read where the organization is locked, and what follows. -/
theorem wp_locked_role_bind {organization_id actor_id : Uuid}
    {f : OrganizationRole → Code OrganizationError α}
    (hf : ∀ role s', SeenRole p ⟨organization_id, actor_id⟩ role s'.log →
      (standingLogic P G).wp p r (f role) (fun _ _ => True) s') :
    (standingLogic P G).wp p r (do
      OrganizationService.lock organization_id
      OrganizationService.locked_role organization_id actor_id >>= f) (fun _ _ => True) s := by
  refine Logic.wp_seq trivial (wp_of_still ?_) fun _ s₁ _ => ?_
  · refine (issues_query trivial).bind fun found => ?_
    cases found <;> trivial
  unfold OrganizationService.locked_role
  rw [Script.bind_assoc]
  refine Logic.wp_query_bind fun s₂ he₂ => ⟨fun _ _ => .inl trivial, fun found s₃ hx₃ _ => ?_,
    fun _ _ _ _ _ _ => trivial⟩
  cases found with
  | none => exact fun _ _ => trivial
  | some role => exact hf role s₃ (.locked hx₃.mem_self)

theorem wp_standing_tx {body : Timestamp → Code OrganizationError α}
    (hbody : ∀ now s', (standingLogic P G).wp p r (body now) (fun _ _ => True) s') :
    (standingLogic P G).wp p r (transaction body) (fun _ _ => True) s :=
  wp_transaction (fun _ _ _ => .inl trivial) (fun _ _ _ => .inl trivial) trivial
    fun now s' _ => hbody now s'

theorem member_still (organization_id user_id : Uuid) :
    (OrganizationService.member organization_id user_id).Issues Stmt.still := by
  refine (issues_query trivial).bind fun found => ?_
  cases found <;> trivial

theorem wp_add_member_standing {organization_id actor_id : Uuid} (email : String)
    (role : OrganizationRole) (hr : r.scope = some ⟨organization_id, actor_id⟩)
    (hallows : ∀ role : OrganizationRole, role.is_manager = true → r.allows role = true) :
    (standingLogic P G).wp p r
    (OrganizationService.add_member d organization_id email role actor_id)
      (fun _ _ => True) s := by
  refine Logic.wp_seq trivial (wp_of_still (Issues.mapError ?_)) fun found s₁ _ => ?_
  · refine (issues_query trivial).bind fun found => ?_
    cases found <;> trivial
  cases found with
  | none => exact fun _ _ => trivial
  | some user_id =>
    refine Logic.wp_seq trivial ?_ fun _ s₂ _ =>
      wp_of_still ((member_still _ _).bind fun _ => issues_ret)
    refine wp_standing_tx fun now s₂ => wp_locked_role_bind fun actor_role s₃ hseen => ?_
    exact wp_require_manager_standing fun hmanager =>
      wp_of_allowed hr ⟨actor_role, hseen, hallows _ hmanager⟩ _

theorem wp_set_member_role_standing {organization_id actor_id : Uuid} (target_id : Uuid)
    (role : OrganizationRole) (hr : r.scope = some ⟨organization_id, actor_id⟩)
    (hallows : ∀ role : OrganizationRole, role.is_manager = true → r.allows role = true) :
    (standingLogic P G).wp p r
      (OrganizationService.set_member_role organization_id target_id role actor_id)
      (fun _ _ => True) s := by
  refine Logic.wp_seq trivial ?_ fun _ s₂ _ => wp_of_still (member_still _ _)
  refine wp_standing_tx fun now s₂ => wp_locked_role_bind fun actor_role s₃ hseen => ?_
  exact wp_require_manager_standing fun hmanager =>
    wp_of_allowed hr ⟨actor_role, hseen, hallows _ hmanager⟩ _

/-- Whoever leaves needs no more than a role; whoever removes somebody else has to manage. -/
theorem wp_remove_member_standing {organization_id target_id actor_id : Uuid}
    (hr : r.scope = some ⟨organization_id, actor_id⟩)
    (hallows : ∀ role : OrganizationRole,
      (target_id = actor_id ∨ role.is_manager = true) → r.allows role = true) :
    (standingLogic P G).wp p r
      (OrganizationService.remove_member organization_id target_id actor_id)
      (fun _ _ => True) s := by
  refine wp_standing_tx fun now s₂ => wp_locked_role_bind fun actor_role s₃ hseen => ?_
  refine Logic.wp_query_bind fun s₄ he₄ => ⟨fun _ _ => .inl trivial, fun found s₅ hx₅ _ => ?_,
    fun _ _ _ _ _ _ => trivial⟩
  have hseen₅ := hseen.mono fun _ he => hx₅.mem (he₄.others.mem he)
  cases found with
  | none => exact fun _ _ => trivial
  | some current =>
    by_cases hself : target_id = actor_id
    · exact wp_of_allowed hr ⟨actor_role, hseen₅, hallows _ (.inl hself)⟩ _
    · dsimp only
      rw [show decide (target_id ≠ actor_id) = true from decide_eq_true hself, when, if_pos rfl,
        Script.bind_assoc]
      exact wp_require_manager_standing fun hmanager =>
        wp_of_allowed hr ⟨actor_role, hseen₅, hallows _ (.inr hmanager)⟩ _

/-! ### Every request looks at the role first -/

/-- **Every request looks at the role first.** -/
theorem wp_standing (r : Request) :
    (standingLogic d.platform G).wp p r (Request.code d r) (fun _ _ => True) s := by
  cases hr : r.scope with
  | none =>
    refine Logic.wp_of_pre (fun {q s} _ scope hscope => ?_) _ _
    rw [hr] at hscope
    cases hscope
  | some scope =>
    have hscope := hr
    cases r with
    | rename_organization organization_id name actor_id =>
      cases hr
      refine wp_access_bind fun standing s₁ hseen => wp_require_manager_standing fun hmanager => ?_
      exact wp_of_allowed hscope ⟨standing.role, hseen, hmanager⟩ _
    | delete_organization organization_id actor_id =>
      cases hr
      refine wp_access_bind fun standing s₁ hseen => ?_
      unfold OrganizationService.require_owner
      split
      · next howner => exact wp_of_allowed hscope ⟨standing.role, hseen, howner⟩ _
      · exact fun _ _ => trivial
    | add_member _ _ _ _ =>
      cases hr
      exact wp_add_member_standing _ _ hscope fun _ hmanager => hmanager
    | set_member_role _ _ _ _ =>
      cases hr
      exact wp_set_member_role_standing _ _ hscope fun _ hmanager => hmanager
    | remove_member _ _ _ =>
      cases hr
      exact wp_remove_member_standing hscope fun _ h => by simpa [Request.allows] using h
    | create_form _ _ _ | update_form _ _ _ _ | publish_form _ _ _ | close_form _ _ _
    | rotate_public_id _ _ _ | delete_form _ _ _ | set_submission_status _ _ _ _
    | delete_submission _ _ _ =>
      cases hr
      exact wp_form_manager hscope (fun _ hmanager => hmanager) _
    | create_endpoint _ _ _ | update_endpoint _ _ _ _ | delete_endpoint _ _ _
    | rotate_secret _ _ _ | redeliver _ _ _ =>
      cases hr
      exact wp_webhook_manager hscope (fun _ hmanager => hmanager) _
    | export_submissions _ _ _ _ _ =>
      exact wp_of_still (FormService.export_submissions_issues trivial trivial trivial
        fun _ => trivial)
    | _ => cases hr

end Scripts

/-! ### Every run -/

section Run

variable {d : Deployment} {db : Database} {w₀ w w' : World} {p : ℕ} {scope : Scope} {o : Uuid}
  {role : OrganizationRole}

theorem standing_safe (db : Database) :
    (standingLogic d.platform anything).Safe (fun _ _ _ _ => True) (World.start db) :=
    .start trivial

/-- The account has the role in the organization. -/
def Database.Standing (db : Database) (scope : Scope) (role : OrganizationRole) : Prop :=
  ∃ m ∈ db.organization_members.rows, m.organization_id = scope.organization_id ∧
    m.user_id = scope.actor_id ∧ m.role = role

theorem standing_of_find {key : Uuid × Uuid} (hkey : key = (scope.organization_id, scope.actor_id))
    (h : (db.organization_members.find? key).map (·.role) = some role) :
    db.Standing scope role := by
  obtain ⟨m, hfind, hrole⟩ := Option.map_eq_some_iff.mp h
  obtain ⟨hm, hm'⟩ := Table.find?_eq_some.mp hfind
  obtain ⟨ho, hu⟩ := Prod.ext_iff.mp (hm'.trans hkey)
  exact ⟨m, hm, ho, hu, hrole⟩

/-- A role that was seen was there. -/
theorem standing_of_seen (h : Reaches d anything (World.start db) w)
    (hseen : SeenRole p scope role w.shared.log) :
    ∃ e ∈ w.shared.log, e.pid = p ∧ e.before.Standing scope role := by
  cases hseen with
  | @access r before row hmem hrole =>
    obtain ⟨c, db', hrun⟩ := h.answered _ hmem _ rfl
    have hrow := Except.ok.inj (congrArg Prod.snd (Option.some.inj hrun))
    obtain ⟨organization, -, hrow⟩ := Option.map_eq_some_iff.mp hrow
    refine ⟨_, hmem, rfl, standing_of_find rfl ?_⟩
    rw [← hrole, ← hrow]
  | @locked r before hmem =>
    obtain ⟨c, db', hrun⟩ := h.answered _ hmem _ rfl
    have hrole := Except.ok.inj (congrArg Prod.snd (Option.some.inj hrun))
    exact ⟨_, hmem, rfl, standing_of_find rfl hrole⟩

/-- **Nothing is changed without the standing for it.** Whenever what a request does next changes
anything of what an organization has, there was a moment since the request arrived at which the
account it was made for had a role that allows it. -/
theorem changed_with_standing (h₀ : Reaches d anything (World.start db) w₀)
    (hnew : w₀.procs p = none) (h : Reaches d anything w₀ w)
    {proc : Interleave.Proc Stmt.Reply Failure Request.Err Request.Res}
    (hproc : w.procs p = some proc) (hscope : proc.req.scope = some scope) {a : Step}
    (ha : a.actor = some p) (hact : w.act (store d.platform) (Request.code d) a = some w')
    (hchanged : w'.shared.db.tenant o ≠ w.shared.db.tenant o) :
    ∃ w₁, Reaches d anything w₀ w₁ ∧ Reaches d anything w₁ w ∧
      ∃ role, w₁.shared.db.Standing scope role ∧ proc.req.allows role = true := by
  have hsafe := Logic.safe_of_reaches (fun _ r _ _ _ _ => wp_standing r) (standing_safe db)
    (h₀.trans h)
  cases a with
  | step p' c =>
    obtain rfl : p' = p := Option.some.inj ha
    simp only [Interleave.World.act] at hact
    split at hact
    · next r q k hcall =>
      obtain ⟨⟨db', x⟩, hrun, rfl⟩ := Option.map_eq_some_iff.mp hact
      obtain rfl : proc = ⟨r, some (.call q k)⟩ := Option.some.inj (hproc.symm.trans hcall)
      have hpre : StandingPre p' r q w.shared :=
        (hsafe.code p' r _ hcall w.shared (.refl hsafe.inv)).1
      rcases hpre scope hscope with hstill | ⟨role, hseen, hallows⟩
      · exact absurd (Stmt.tenant_of_still hstill hrun o) hchanged
      obtain ⟨e, he, rfl, hstanding⟩ := standing_of_seen (h₀.trans h) hseen
      obtain ⟨w₁, hto, hbefore, hfrom⟩ := h.visits_of_mem (mem_since_of_new h₀ h hnew he)
      exact ⟨w₁, hto, hfrom, role, hbefore ▸ hstanding, hallows⟩
    · cases hact
  | fail p' x =>
    simp only [Interleave.World.act] at hact
    split at hact <;> cases hact
    exact absurd rfl hchanged
  | stop p' =>
    simp only [Interleave.World.act] at hact
    split at hact <;> cases hact
    exact absurd rfl hchanged
  | _ => cases ha

/-- An owner of organization 1 is about to close its form. -/
def closesContact : List Step :=
  [.spawn 1 (.close_form 1 2 8), .step 1 {}, .step 1 {}]

/-- The form is closed, and whoever closed it had the standing for it. -/
theorem changed_with_standing_closesContact :
    let w := Deployment.sample.play anything closesContact .twoTenants
    ∃ w', w.act (store .sample) (Request.code .sample) (.step 1 {}) = some w' ∧
      (w'.shared.db.tenant 1).forms.map (·.status) = [.closed] ∧
      ∃ w₁, Reaches .sample anything (World.start .twoTenants) w₁ ∧
        Reaches .sample anything w₁ w ∧
        ∃ role, w₁.shared.db.Standing ⟨1, 8⟩ role ∧ role.is_manager = true := by
  intro w
  have hacts : ∃ w', w.act (store .sample) (Request.code .sample) (.step 1 {}) = some w' ∧
      (w'.shared.db.tenant 1).forms.map (·.status) = [.closed] := ⟨_, rfl, by decide +kernel⟩
  obtain ⟨w', hact, hclosed⟩ := hacts
  obtain ⟨proc, hproc, hreq⟩ : ∃ proc, w.procs 1 = some proc ∧ proc.req = .close_form 1 2 8 :=
    ⟨_, rfl, rfl⟩
  have hchanged : w'.shared.db.tenant 1 ≠ w.shared.db.tenant 1 := by
    intro heq
    have hopen : (w.shared.db.tenant 1).forms.map (·.status) = [.published] := by decide +kernel
    rw [heq, hopen] at hclosed
    cases hclosed
  obtain ⟨w₁, hto, hfrom, role, hstanding, hallows⟩ := changed_with_standing .refl rfl
    (Deployment.sample.reaches_play anything closesContact _) hproc (by rw [hreq]; rfl) rfl hact
    hchanged
  rw [hreq] at hallows
  exact ⟨w', hact, hclosed, w₁, hto, hfrom, role, hstanding, hallows⟩

end Run

end SubmitSnap
