import SubmitSnap.Tenant.Register

/-!
# A request stays in its organization

The handlers check that the caller belongs to the organization in the path, and the statements that
follow name that organization in their `WHERE`. Not all of them do: deletes cascade along foreign
keys, and the pages of an export are read by form alone. That no row of another organization is
touched or shown all the same is because a thing has one organization.

## The argument

`scopeLogic` asks of a request of an organization that each of its statements be `Stmt.within` that
organization: it names the organization, or it names a form of which the log of the run says that it
is the organization's. Only the export needs the second: it reads the form once, under the
organization, and from then on goes by the form alone. Between the two the form may be deleted, but
it cannot change hands.

What a statement within an organization may touch is then a fact about one statement and one
database (`Stmt.tenant_eq`). Deletes are the hard case, since a cascade goes by foreign keys and
does not look at organizations at all. It stays inside because what it takes along refers to
something that is going, and in a database whose rows `Agree` whoever refers to a thing is of its
organization. That the rows of every state of a run agree is the invariant of the module on
registers, which this one uses and does not repeat.

The requests are the handlers that change something in an organization, and the export. Those that
only list or show one row are not modelled.

## Main definitions

* `Database.tenant` — what belongs to one organization.
* `Stmt.within` — the statements that may serve a request of an organization.
* `disclosed` — whose rows an answer shows, or is computed from.

## Main results

* `confined` — a step of a request changes nothing of any other organization.
* `disclosed_own` — what a request is shown belongs to its organization.
-/

namespace SubmitSnap

open Interleave
open Interleave.Script
open Tenanted

/-- All that belongs to one organization. -/
structure Tenant where
  organizations : List OrganizationRecord
  organization_members : List OrganizationMember
  forms : List FormRecord
  submissions : List SubmissionRecord
  file_uploads : List FileUploadRecord
  webhook_endpoints : List WebhookEndpointRecord
  webhook_deliveries : List WebhookDeliveryRecord
  outbox_events : List OutboxEvent

/-- What the database has of one organization. -/
def Database.tenant (db : Database) (o : Uuid) : Tenant where
  organizations := db.organizations.rows.filter fun row => row.id == o
  organization_members := db.organization_members.rows.filter fun m => m.organization_id == o
  forms := db.forms.rows.filter fun f => f.organization_id == o
  submissions := db.submissions.rows.filter fun row => row.organization_id == o
  file_uploads := db.file_uploads.rows.filter fun u => u.organization_id == o
  webhook_endpoints := db.webhook_endpoints.rows.filter fun e => e.organization_id == o
  webhook_deliveries := db.webhook_deliveries.rows.filter fun d => d.organization_id == o
  outbox_events := db.outbox_events.rows.filter fun ev => ev.organization_id == o

/-- The statements that may serve a request of an organization: those that name it, and those that
name a form the trace says is of it. -/
def Stmt.within (o : Uuid) (log : List Event) : Stmt → Prop
  | organizations (.access id _) | organizations (.rename id _) | organizations (.delete id)
  | forms (.create id _ _ _ _) | forms (.find id _)
  | forms (.replace_definition id _ _ _ _ _ _ _ _) | forms (.set_status id _ _)
  | forms (.set_public_id id _ _) | forms (.delete id _) | submissions (.find id _)
  | submissions (.set_status id _ _) | submissions (.delete id _)
  | webhooks (.create_endpoint id _ _ _ _) | webhooks (.find_endpoint id _)
  | webhooks (.update_endpoint id _ _) | webhooks (.delete_endpoint id _)
  | webhooks (.set_endpoint_secret id _ _)
  | webhooks (.form_belongs_to id _) | webhooks (.find_delivery id _)
  | webhooks (.requeue_delivery id _) => id = o
  | submissions (.page_after form_id _ _) | submissions (.distinct_answer_keys form_id) =>
    Told (.form form_id) o log
  | generate | generate_key => True
  | q => q.onMembership o

/-! ### What a delete reaches

A cascade follows foreign keys from the row that goes. To stay within an organization it needs
that whatever refers to a thing of the organization is of the organization itself, which is what
`Agree` says. -/

section Deletes

variable {db : Database} {o o' : Uuid}

/-- The rows of a database agree on what belongs to whom. -/
def Agree (db : Database) : Prop := ∀ thing o o', Places db thing o → Places db thing o' → o = o'

/-- All these things are the organization's. -/
def AllOf (db : Database) (o : Uuid) (thing : Uuid → Thing) (gone : Uuid → Bool) : Prop :=
  ∀ id, gone id = true → ∀ o', Places db (thing id) o' → o' = o

theorem Agree.allOf (h : Agree db) {thing : Uuid → Thing} {gone : Uuid → Bool}
    (hgone : ∀ id, gone id = true → Places db (thing id) o) : AllOf db o thing gone :=
  fun id hid o' hm => h (thing id) o' o hm (hgone id hid)

theorem ne_owner (hne : o' ≠ o) {o₁ : Uuid} (h : o₁ = o) : (o₁ == o') = false :=
  beq_eq_false_iff_ne.mpr (h ▸ hne.symm)

theorem cascadeSubmission_tenant (hne : o' ≠ o) {gone : Uuid → Bool}
    (hgone : AllOf db o .submission gone) :
    (db.cascadeSubmission gone).tenant o' = db.tenant o' := by
  unfold Database.tenant
  congr 1
  · refine Table.filter_deleteWhere fun row hrow hsel => ne_owner hne ?_
    exact hgone _ hsel _ (.submission hrow (by simp [things]))
  · refine Table.filter_updateWhere fun u hu hsel => ?_
    obtain ⟨id, hid, hg⟩ := (Option.any_eq_true _ _).mp hsel
    have howner : u.organization_id = o := hgone id hg _ (.upload hu (by simp [things, hid]))
    exact ⟨ne_owner hne howner, ne_owner hne howner⟩
  · refine Table.filter_updateWhere fun d hd hsel => ?_
    obtain ⟨id, hid, hg⟩ := (Option.any_eq_true _ _).mp hsel
    have howner : d.organization_id = o := hgone id hg _ (.delivery hd (by simp [things, hid]))
    exact ⟨ne_owner hne howner, ne_owner hne howner⟩

theorem cascadeEndpoint_tenant (hne : o' ≠ o) {gone : Uuid → Bool}
    (hgone : AllOf db o .endpoint gone) : (db.cascadeEndpoint gone).tenant o' = db.tenant o' := by
  unfold Database.tenant
  congr 1
  · refine Table.filter_deleteWhere fun e he hsel => ne_owner hne ?_
    exact hgone _ hsel _ (.endpoint he (by simp [things]))
  · refine Table.filter_deleteWhere fun d hd hsel => ne_owner hne ?_
    exact hgone _ hsel _ (.delivery hd (by simp [things]))

theorem cascadeForm_tenant (hne : o' ≠ o) (hdb : Agree db) {gone : Uuid → Bool}
    (hgone : AllOf db o .form gone) : (db.cascadeForm gone).tenant o' = db.tenant o' := by
  unfold Database.cascadeForm
  extract_lets db₁ db₂
  have hsubmissions : AllOf db o .submission (db.submissionsWhere fun s => gone s.form_id) := by
    refine hdb.allOf fun id hid => ?_
    obtain ⟨row, hrow, hsel⟩ := List.any_eq_true.mp hid
    obtain ⟨heq, hform⟩ := Bool.and_eq_true_iff.mp hsel
    obtain rfl : row.id = id := beq_iff_eq.mp heq
    have howner : row.organization_id = o := hgone _ hform _ (.submission hrow (by simp [things]))
    exact howner ▸ .submission hrow (by simp [things])
  have h₁ : db₁.tenant o' = db.tenant o' := cascadeSubmission_tenant hne hsubmissions
  have hfrom₁ : TenantsFrom db db₁ := db.cascadeSubmission_tenants _
  have hendpoints : AllOf db₁ o .endpoint (db₁.endpointsWhere fun e => e.form_id.any gone) := by
    refine Agree.allOf (fun _ _ _ hm hm' => hdb _ _ _ (hfrom₁.places hm) (hfrom₁.places hm'))
      fun id hid => ?_
    obtain ⟨e, he, hsel⟩ := List.any_eq_true.mp hid
    obtain ⟨heq, hform⟩ := Bool.and_eq_true_iff.mp hsel
    obtain rfl : e.id = id := beq_iff_eq.mp heq
    obtain ⟨form_id, hform_id, hg⟩ := (Option.any_eq_true _ _).mp hform
    have howner : e.organization_id = o :=
      hgone _ hg _ (hfrom₁.places (.endpoint he (by simp [things, hform_id])))
    exact howner ▸ .endpoint he (by simp [things])
  have h₂ : db₂.tenant o' = db₁.tenant o' := cascadeEndpoint_tenant hne hendpoints
  have hfrom₂ : TenantsFrom db db₂ := hfrom₁.trans (db₁.cascadeEndpoint_tenants _)
  refine Eq.trans ?_ (h₂.trans h₁)
  unfold Database.tenant
  congr 1
  · refine Table.filter_deleteWhere fun f hf hsel => ne_owner hne ?_
    exact hgone _ hsel _ (hfrom₂.places (.form hf (by simp [things])))
  · refine Table.filter_deleteWhere fun u hu hsel => ne_owner hne ?_
    exact hgone _ hsel _ (hfrom₂.places (.upload hu (by simp [things])))

theorem cascadeOrganization_tenant (hne : o' ≠ o) (hdb : Agree db) :
    (db.cascadeOrganization o).tenant o' = db.tenant o' := by
  unfold Database.cascadeOrganization
  extract_lets db₁ db₂ db₃
  have hforms : AllOf db o .form (db.formsWhere fun f => f.organization_id == o) := by
    refine hdb.allOf fun id hid => ?_
    obtain ⟨f, hf, hsel⟩ := List.any_eq_true.mp hid
    simp only [Bool.and_eq_true, beq_iff_eq] at hsel
    obtain ⟨rfl, howner⟩ := hsel
    exact howner ▸ .form hf (by simp [things])
  have h₁ : db₁.tenant o' = db.tenant o' := cascadeForm_tenant hne hdb hforms
  have hfrom₁ : TenantsFrom db db₁ := db.cascadeForm_tenants _
  have hdb₁ : Agree db₁ :=
    fun _ _ _ hm hm' => hdb _ _ _ (hfrom₁.places hm) (hfrom₁.places hm')
  have hsubmissions : AllOf db₁ o .submission
      (db₁.submissionsWhere fun s => s.organization_id == o) := by
    refine hdb₁.allOf fun id hid => ?_
    obtain ⟨row, hrow, hsel⟩ := List.any_eq_true.mp hid
    simp only [Bool.and_eq_true, beq_iff_eq] at hsel
    obtain ⟨rfl, howner⟩ := hsel
    exact howner ▸ .submission hrow (by simp [things])
  have h₂ : db₂.tenant o' = db₁.tenant o' := cascadeSubmission_tenant hne hsubmissions
  have hfrom₂ : TenantsFrom db₁ db₂ := db₁.cascadeSubmission_tenants _
  have hdb₂ : Agree db₂ :=
    fun _ _ _ hm hm' => hdb₁ _ _ _ (hfrom₂.places hm) (hfrom₂.places hm')
  have hendpoints : AllOf db₂ o .endpoint
      (db₂.endpointsWhere fun e => e.organization_id == o) := by
    refine hdb₂.allOf fun id hid => ?_
    obtain ⟨e, he, hsel⟩ := List.any_eq_true.mp hid
    simp only [Bool.and_eq_true, beq_iff_eq] at hsel
    obtain ⟨rfl, howner⟩ := hsel
    exact howner ▸ .endpoint he (by simp [things])
  have h₃ : db₃.tenant o' = db₂.tenant o' := cascadeEndpoint_tenant hne hendpoints
  refine Eq.trans ?_ (h₃.trans (h₂.trans h₁))
  unfold Database.tenant
  congr 1 <;> exact Table.filter_deleteWhere fun _ _ hsel => ne_owner hne (beq_iff_eq.mp hsel)

end Deletes

/-! ### What a statement changes

Each family of statements has its `WHERE`. For those that name the organization a row that is
touched is one of it; a statement that adds a row adds one of it. -/

section Statements

variable {P : Platform} {p : ℕ} {c : Choice} {db db' : Database} {o o' : Uuid} {log : List Event}

theorem Write.apply_tenant (hne : o' ≠ o) {w : Write} (hw : w.belongs_to = some o) :
    (w.apply db).tenant o' = db.tenant o' := by
  unfold Database.tenant
  cases w with
  | organization row =>
    cases hw
    congr 1
    exact Table.filter_insertNew (ne_owner hne rfl)
  | organization_member row =>
    cases hw
    congr 1
    refine Eq.trans (Table.filter_insertNew ?_) (Table.filter_updateWhere fun m _ hsel => ?_)
    · exact ne_owner hne rfl
    · have howner : m.organization_id = row.organization_id :=
        congrArg Prod.fst (beq_iff_eq.mp hsel)
      exact ⟨ne_owner hne howner, ne_owner hne howner⟩
  | remove_member organization_id user_id =>
    cases hw
    congr 1
    refine Table.filter_deleteWhere fun m _ hsel => ne_owner hne ?_
    exact beq_iff_eq.mp (Bool.and_eq_true_iff.mp hsel).1
  | _ => cases hw

theorem Write.applyAll_tenant (hne : o' ≠ o) {ws : List Write}
    (hws : ∀ w ∈ ws, w.belongs_to = some o) : (Write.applyAll db ws).tenant o' = db.tenant o' := by
  induction ws generalizing db with
  | nil => rfl
  | cons w ws ih =>
    rw [Write.applyAll_cons, ih fun w' hw' => hws w' (List.mem_cons_of_mem _ hw')]
    exact Write.apply_tenant hne (hws w List.mem_cons_self)

/-- The `WHERE` of a statement that names its organization. -/
theorem owner_of_where {a b : Uuid} {c : Bool} (h : (a == b && c) = true) : a = b :=
  beq_iff_eq.mp (Bool.and_eq_true_iff.mp h).1

theorem FormStmt.tenant_eq (hne : o' ≠ o) (hdb : Agree db) {q : FormStmt}
    {x : Except Failure q.Reply} (hq : (Stmt.forms q).within o log)
    (h : q.run p c db = some (db', x)) : db'.tenant o' = db.tenant o' := by
  cases q with
  | create organization_id name public_id schema notify_emails =>
    cases hq
    simp only [FormStmt.run] at h
    (repeat' split at h) <;> cases h
    · rfl
    · rfl
    · rfl
    unfold Database.tenant
    congr 1
    exact Table.filter_insertNew (ne_owner hne rfl)
  | delete organization_id id =>
    cases hq
    simp only [FormStmt.run] at h
    split at h
    · cases h
      rfl
    next f hfind =>
    split at h <;> cases h
    refine cascadeForm_tenant hne hdb (hdb.allOf fun id' hid' => ?_)
    have hsel := List.find?_some hfind
    simp only [Bool.and_eq_true, beq_iff_eq] at hsel
    obtain ⟨rfl, rfl⟩ := hsel
    obtain rfl : id' = f.id := beq_iff_eq.mp hid'
    exact .form (List.mem_of_find?_eq_some hfind) (by simp [things])
  | replace_definition _ _ _ _ _ _ _ _ _ | set_status _ _ _ | set_public_id _ _ _ =>
    cases hq
    simp only [FormStmt.run] at h
    (repeat' split at h) <;> cases h
    all_goals first
      | rfl
      | (unfold Database.tenant
         congr 1
         exact Table.filter_updateWhere fun _ _ hsel =>
           ⟨ne_owner hne (owner_of_where hsel), ne_owner hne (owner_of_where hsel)⟩)
  | find _ _ | find_by_public_id _ =>
    cases h
    rfl

theorem SubmissionStmt.tenant_eq (hne : o' ≠ o) (hdb : Agree db) {q : SubmissionStmt}
    {x : Except Failure q.Reply} (hq : (Stmt.submissions q).within o log)
    (h : q.run p c db = some (db', x)) : db'.tenant o' = db.tenant o' := by
  cases q with
  | insert _ _ => exact hq.elim
  | set_status organization_id id status =>
    cases hq
    simp only [SubmissionStmt.run] at h
    split at h <;> cases h
    unfold Database.tenant
    congr 1
    exact Table.filter_updateWhere fun _ _ hsel =>
      ⟨ne_owner hne (owner_of_where hsel), ne_owner hne (owner_of_where hsel)⟩
  | delete organization_id id =>
    cases hq
    simp only [SubmissionStmt.run] at h
    split at h
    · cases h
      rfl
    next row hfind =>
    split at h <;> cases h
    refine cascadeSubmission_tenant hne (hdb.allOf fun id' hid' => ?_)
    have hsel := List.find?_some hfind
    simp only [Bool.and_eq_true, beq_iff_eq] at hsel
    obtain ⟨rfl, rfl⟩ := hsel
    obtain rfl : id' = row.id := beq_iff_eq.mp hid'
    exact .submission (List.mem_of_find?_eq_some hfind) (by simp [things])
  | find _ _ | page_after _ _ _ | distinct_answer_keys _ =>
    cases h
    rfl

theorem WebhookStmt.tenant_eq (hne : o' ≠ o) (hdb : Agree db) {q : WebhookStmt}
    {x : Except Failure q.Reply} (hq : (Stmt.webhooks q).within o log)
    (h : q.run p c db = some (db', x)) : db'.tenant o' = db.tenant o' := by
  cases q with
  | create_endpoint organization_id form_id url secret description =>
    cases hq
    simp only [WebhookStmt.run] at h
    (repeat' split at h) <;> cases h
    · rfl
    · rfl
    · rfl
    · rfl
    unfold Database.tenant
    congr 1
    exact Table.filter_insertNew (ne_owner hne rfl)
  | update_endpoint organization_id id changes =>
    cases hq
    simp only [WebhookStmt.run] at h
    (repeat' split at h) <;> cases h
    · rfl
    · rfl
    · rfl
    unfold Database.tenant
    congr 1
    exact Table.filter_updateWhere fun _ _ hsel =>
      ⟨ne_owner hne (owner_of_where hsel), ne_owner hne (owner_of_where hsel)⟩
  | set_endpoint_secret organization_id id secret =>
    cases hq
    simp only [WebhookStmt.run] at h
    (repeat' split at h) <;> cases h
    · rfl
    · rfl
    unfold Database.tenant
    congr 1
    exact Table.filter_updateWhere fun _ _ hsel =>
      ⟨ne_owner hne (owner_of_where hsel), ne_owner hne (owner_of_where hsel)⟩
  | delete_endpoint organization_id id =>
    cases hq
    simp only [WebhookStmt.run] at h
    split at h
    · cases h
      rfl
    next e hfind =>
    split at h <;> cases h
    refine cascadeEndpoint_tenant hne (hdb.allOf fun id' hid' => ?_)
    have hsel := List.find?_some hfind
    simp only [Bool.and_eq_true, beq_iff_eq] at hsel
    obtain ⟨rfl, rfl⟩ := hsel
    obtain rfl : id' = e.id := beq_iff_eq.mp hid'
    exact .endpoint (List.mem_of_find?_eq_some hfind) (by simp [things])
  | requeue_delivery organization_id id =>
    cases hq
    cases h
    unfold Database.tenant
    congr 1
    exact Table.filter_updateWhere fun _ _ hsel =>
      ⟨ne_owner hne (owner_of_where hsel), ne_owner hne (owner_of_where hsel)⟩
  | find_endpoint _ _ | form_belongs_to _ _ | find_delivery _ _ =>
    cases h
    rfl
  | _ => exact hq.elim

/-- **A statement stays in its organization**, as long as the rows agree on what belongs to whom. -/
theorem Stmt.tenant_eq (hne : o' ≠ o) (hdb : Agree db) {q : Stmt} {x : Except Failure q.Reply}
    (hq : q.within o log) (h : q.run P p c db = some (db', x)) :
    db'.tenant o' = db.tenant o' := by
  cases q with
  | organizations q =>
    cases q with
    | delete id =>
      cases hq
      simp only [Stmt.run, OrganizationStmt.run] at h
      split at h <;> cases h
      exact cascadeOrganization_tenant hne hdb
    | rename id name =>
      cases hq
      simp only [Stmt.run, OrganizationStmt.run] at h
      (repeat' split at h) <;> cases h
      · rfl
      unfold Database.tenant
      congr 1
      exact Table.filter_updateWhere fun _ _ hsel =>
        ⟨ne_owner hne (beq_iff_eq.mp hsel), ne_owner hne (beq_iff_eq.mp hsel)⟩
    | insert_organization _ _ | insert_owner _ _ _ | access _ _ | lock _ | role_of _ _
    | member_of _ _ | upsert_member _ _ _ _ | remove_member _ _ | owner_count _ =>
      simp only [Stmt.run, OrganizationStmt.run] at h
      (repeat' split at h) <;> cases h <;> rfl
  | users q =>
    cases q with
    | find_by_email email =>
      cases h
      rfl
    | _ => exact hq.elim
  | forms q => exact FormStmt.tenant_eq hne hdb hq h
  | submissions q => exact SubmissionStmt.tenant_eq hne hdb hq h
  | webhooks q => exact WebhookStmt.tenant_eq hne hdb hq h
  | commit ws =>
    cases h
    exact Write.applyAll_tenant hne hq
  | generate | generate_key =>
    simp only [Stmt.run] at h
    split at h <;> cases h
    rfl
  | begin_tx | rollback =>
    cases h
    rfl
  | _ => exact hq.elim

end Statements

/-! ### Every request keeps to its organization -/

/-- A request of an organization executes only statements within it. -/
def ScopePre (r : Request) (q : Stmt) (s : State) : Prop :=
  ∀ scope ∈ r.scope, q.within scope.organization_id s.log

/-- The logic of requests that keep to their organization. -/
def scopeLogic (P : Platform) (G : Regime) : Logic G (store P) :=
  .ofPre fun _ r q s => ScopePre r q s

section Scripts

variable {P : Platform} {d : Deployment} {G : Regime} {p : ℕ} {r : Request} {s : State} {o : Uuid}
  {ε α : Type}

theorem Stmt.within_of_onMembership {q : Stmt} {log : List Event} (h : q.onMembership o) :
    q.within o log := by
  cases q with
  | organizations q =>
    cases q with
    | access _ _ | rename _ _ | delete _ => exact h.elim
    | _ => exact h
  | forms _ | submissions _ | webhooks _ => exact h.elim
  | generate | generate_key => trivial
  | _ => exact h

/-- Code that issues statements within an organization, serving a request of it. -/
theorem wp_of_within {scope : Scope} (hr : r.scope = some scope) {x : Code ε α}
    (hx : x.Issues fun q => ∀ log, q.within scope.organization_id log) :
    (scopeLogic P G).wp p r x (fun _ _ => True) s := by
  refine Logic.wp_of_does (fun q => ∀ log, q.within scope.organization_id log) (fun _ _ => True)
    (fun _ => True) (fun _ => True) (fun _ _ => trivial) (fun {q s} hq _ _ scope' hscope => ?_)
    (fun _ _ _ _ _ => ⟨trivial, trivial⟩) (fun _ _ => trivial) hx.does trivial
  obtain rfl : scope = scope' := Option.some.inj (hr.symm.trans hscope)
  exact hq s.log

theorem wp_of_membership {scope : Scope} (hr : r.scope = some scope) {x : Code OrganizationError α}
    (hx : MembershipOf scope.organization_id x) :
    (scopeLogic P G).wp p r x (fun _ _ => True) s := by
  refine Logic.wp_of_does (Stmt.onMembership scope.organization_id) UpsertsOwn (fun _ => True)
    (fun _ => True) (fun _ _ => trivial) (fun {q s} hq _ _ scope' hscope => ?_)
    (fun _ _ _ hx _ => ⟨upsertsOwn_of_effect hx, trivial⟩) (fun _ _ => trivial) hx trivial
  obtain rfl : scope = scope' := Option.some.inj (hr.symm.trans hscope)
  exact Stmt.within_of_onMembership hq

/-- The statements of an export are within the organization the form was found in. -/
theorem wp_export_within (organization_id form_id actor_id : Uuid) (format : ExportFormat)
    (rounds : ℕ) (hr : r.scope = some ⟨organization_id, actor_id⟩) :
    (scopeLogic P G).wp p r
    (FormService.export_submissions d organization_id form_id actor_id format
      rounds) (fun _ _ => True) s := by
  have hscope : ∀ {q : Stmt} {s : State}, q.within organization_id s.log → ScopePre r q s := by
    intro q s hq scope hscope
    cases Option.some.inj (hr.symm.trans hscope)
    exact hq
  refine Logic.wp_seq trivial (wp_of_within hr
    (OrganizationService.access_issues fun _ => rfl).mapError) fun _ s₁ _ => ?_
  refine Logic.wp_bind (Ψ := fun y s' => ∀ form, y = .ok form →
    Told (.form form_id) organization_id s'.log) trivial ?_ (fun form s₂ _ hform => ?_)
    fun _ _ _ _ => trivial
  · refine Logic.wp_query_bind fun s₂ he₂ => ⟨hscope rfl, fun found s₃ hx₃ _ => ?_,
      fun _ _ _ _ _ _ => nofun⟩
    cases found with
    | none => exact fun _ _ => nofun
    | some form =>
      intro s₄ he₄ _ _
      obtain ⟨-, c, db, hrun, -⟩ := hx₃.of_ok
      have hfind : s₂.db.formOf organization_id form_id = some form :=
        Except.ok.inj (congrArg Prod.snd (Option.some.inj hrun))
      have hsel := List.find?_some hfind
      simp only [Bool.and_eq_true, beq_iff_eq] at hsel
      obtain ⟨rfl, rfl⟩ := hsel
      have hplaces : Places s₂.db (.form form.id) form.organization_id :=
        .form (List.mem_of_find?_eq_some hfind) (by simp [things])
      exact (told_of_effect hx₃ hplaces).mono fun _ => he₄.others.mem
  -- The form does not change its organization while the pages are read.
  have hrest : ∀ {α : Type} {x : Code FormError α}, x.Issues (fun q => ∀ log,
      Told (.form form_id) organization_id log → q.within organization_id log) →
      (scopeLogic P G).wp p r x (fun _ _ => True) s₂ := fun hx =>
    Logic.wp_of_does _ (fun _ _ => True) (fun s => Told (.form form_id) organization_id s.log)
      (fun _ => True) (fun hK he => hK.mono fun _ => he.others.mem)
      (fun hq _ hK => hscope (hq _ hK))
      (fun _ _ hK hx _ => ⟨trivial, hK.mono fun _ => hx.mem⟩) (fun _ _ => trivial) hx.does
      (hform form rfl)
  exact hrest ((issues_query fun _ htold => htold).bind fun _ =>
    (FormService.export_rows_issues (fun _ _ htold => htold) rounds none true).bind
      fun _ => issues_ret)

/-- **Every request keeps to its organization.** -/
theorem wp_within (r : Request) :
    (scopeLogic d.platform G).wp p r (Request.code d r) (fun _ _ => True) s := by
  cases hr : r.scope with
  | none =>
    refine Logic.wp_of_pre (fun {q s} _ scope hscope => ?_) _ _
    rw [hr] at hscope
    cases hscope
  | some scope =>
    have hscope := hr
    cases r with
    | rename_organization _ _ _ =>
      cases hr
      exact wp_of_within hscope (OrganizationService.rename_issues (fun _ => rfl) fun _ => rfl)
    | delete_organization _ _ =>
      cases hr
      exact wp_of_within hscope (OrganizationService.delete_issues (fun _ => rfl) fun _ => rfl)
    | add_member _ _ _ _ =>
      cases hr
      exact wp_of_membership hscope (OrganizationService.add_member_does _ _ _)
    | set_member_role _ _ _ _ =>
      cases hr
      exact wp_of_membership hscope (OrganizationService.set_member_role_does _ _ _)
    | remove_member _ _ _ =>
      cases hr
      exact wp_of_membership hscope (OrganizationService.remove_member_does _ _)
    | create_form _ _ _ =>
      cases hr
      exact wp_of_within hscope (FormService.create_issues (fun _ => rfl) (fun _ => trivial)
        fun _ _ => rfl)
    | update_form _ _ _ _ =>
      cases hr
      exact wp_of_within hscope (FormService.update_issues (fun _ => rfl) (fun _ => rfl)
        fun _ _ _ _ _ _ _ _ => rfl)
    | publish_form _ _ _ =>
      cases hr
      exact wp_of_within hscope
        (FormService.publish_issues (fun _ => rfl) (fun _ => rfl) fun _ => rfl)
    | close_form _ _ _ =>
      cases hr
      exact wp_of_within hscope
        (FormService.close_issues (fun _ => rfl) (fun _ => rfl) fun _ => rfl)
    | rotate_public_id _ _ _ =>
      cases hr
      exact wp_of_within hscope (FormService.rotate_public_id_issues (fun _ => rfl) (fun _ => rfl)
        (fun _ => trivial) fun _ _ => rfl)
    | delete_form _ _ _ =>
      cases hr
      exact wp_of_within hscope
        (FormService.delete_issues (fun _ => rfl) (fun _ => rfl) fun _ => rfl)
    | set_submission_status _ _ _ _ =>
      cases hr
      exact wp_of_within hscope
        (FormService.set_submission_status_issues (fun _ => rfl) (fun _ => rfl)
        fun _ => rfl)
    | delete_submission _ _ _ =>
      cases hr
      exact wp_of_within hscope (FormService.delete_submission_issues (fun _ => rfl) fun _ => rfl)
    | export_submissions _ _ _ _ _ => exact wp_export_within _ _ _ _ _ rfl
    | create_endpoint _ _ _ =>
      cases hr
      exact wp_of_within hscope (WebhookService.create_issues (fun _ => rfl) (fun _ _ => rfl)
        (fun _ => trivial) fun _ _ => rfl)
    | update_endpoint _ _ _ _ =>
      cases hr
      exact wp_of_within hscope (WebhookService.update_issues (fun _ => rfl) (fun _ => rfl)
        (fun _ _ => rfl) fun _ => rfl)
    | delete_endpoint _ _ _ =>
      cases hr
      exact wp_of_within hscope (WebhookService.delete_issues (fun _ => rfl) fun _ => rfl)
    | rotate_secret _ _ _ =>
      cases hr
      exact wp_of_within hscope (WebhookService.rotate_secret_issues (fun _ => rfl) (fun _ => rfl)
        (fun _ => trivial) fun _ _ => rfl)
    | redeliver _ _ _ =>
      cases hr
      exact wp_of_within hscope (WebhookService.redeliver_issues (fun _ => rfl) (fun _ => rfl)
        fun _ => rfl)
    | _ => cases hr

end Scripts

/-! ### Every run -/

/-- What is done by the request with that name. -/
def Step.actor : Step → Option ℕ
  | .step p _ | .fail p _ | .stop p => some p
  | _ => none

/-! The organizations of the rows that an answer shows, or is computed from. An answer that is
only a count, a role or a yes is about rows as well: those that its `WHERE` has selected. An
account belongs to no organization. -/

def OrganizationStmt.shows (before : Database) : (q : OrganizationStmt) → q.Reply → List Uuid
  | access _ _, row => row.toList.flatMap fun row =>
    row.id :: (before.organization_members.rows.filter fun m =>
      m.organization_id == row.id).map (·.organization_id)
  | lock _, id => id.toList
  | rename id _, _ | delete id, _ => (before.organizations.find? id).toList.map (·.id)
  | role_of organization_id user_id, _ | member_of organization_id user_id, _
  | remove_member organization_id user_id, _ =>
    (before.organization_members.find? (organization_id, user_id)).toList.map (·.organization_id)
  | upsert_member _ _ _ _, row => [row.organization_id]
  | owner_count organization_id, _ => (before.owners organization_id).map (·.organization_id)
  | _, _ => []

def FormStmt.shows (before : Database) : (q : FormStmt) → q.Reply → List Uuid
  | create _ _ _ _ _, form => [form.organization_id]
  | find _ _, form => form.toList.map (·.organization_id)
  | replace_definition organization_id id _ _ _ _ _ _ _, _ | set_status organization_id id _, _
  | set_public_id organization_id id _, _ | delete organization_id id, _ =>
    (before.formOf organization_id id).toList.map (·.organization_id)
  | _, _ => []

def SubmissionStmt.shows (before : Database) : (q : SubmissionStmt) → q.Reply → List Uuid
  | find _ _, row => row.toList.map (·.organization_id)
  | page_after _ _ _, rows => rows.map (·.organization_id)
  | distinct_answer_keys form_id, _ => (before.submissionsOf form_id).map (·.organization_id)
  | set_status organization_id id _, _ | delete organization_id id, _ =>
    (before.submissionOf organization_id id).toList.map (·.organization_id)
  | _, _ => []

def WebhookStmt.shows (before : Database) : (q : WebhookStmt) → q.Reply → List Uuid
  | create_endpoint _ _ _ _ _, row => [row.organization_id]
  | find_endpoint _ _, row | update_endpoint _ _ _, row => row.toList.map (·.organization_id)
  | set_endpoint_secret organization_id id _, _ | delete_endpoint organization_id id, _ =>
    (before.endpointOf organization_id id).toList.map (·.organization_id)
  | form_belongs_to organization_id form_id, _ =>
    (before.formOf organization_id form_id).toList.map (·.organization_id)
  | find_delivery _ _, row => row.toList.map (·.organization_id)
  | requeue_delivery organization_id id, _ =>
    (before.webhook_deliveries.rows.find? fun d =>
      d.organization_id == organization_id && d.id == id).toList.map (·.organization_id)
  | _, _ => []

def Stmt.shows (before : Database) : (q : Stmt) → q.Reply → List Uuid
  | organizations q, a => q.shows before a
  | forms q, a => q.shows before a
  | submissions q, a => q.shows before a
  | webhooks q, a => q.shows before a
  | _, _ => []

/-- What an answered statement of a run has shown. -/
def disclosed (e : Event) : List Uuid :=
  match e.reply with
  | .ok a => e.stmt.shows e.before a
  | .error _ => []

section Run

variable {d : Deployment} {db db' : Database} {w w' : World} {p : ℕ} {scope : Scope} {o : Uuid}

theorem scope_safe (db : Database) :
    (scopeLogic d.platform anything).Safe (fun _ _ _ _ => True) (World.start db) := .start trivial

theorem TenantInv.agree {db₀ : Database} {s : State} (hs : TenantInv db₀ s) : Agree s.db :=
  fun thing o o' hm hm' =>
    hs.settled.unique thing o o' (hs.placed _ _ hm) (hs.placed _ _ hm')

theorem TenantInv.told_unique {db₀ : Database} {s : State} (hs : TenantInv db₀ s) {thing : Thing}
    {o o' : Uuid} (h : Told thing o s.log) (h' : Told thing o' s.log) : o = o' :=
  hs.settled.unique thing o o' (hs.told _ _ h) (hs.told _ _ h')

/-- **A request stays in its organization**: whatever it does next, in any state of any run, leaves
all that any other organization has as it was. -/
theorem confined (hdb : Separated db) (h : Reaches d anything (World.start db) w)
    {proc : Interleave.Proc Stmt.Reply Failure Request.Err Request.Res}
    (hproc : w.procs p = some proc) (hscope : proc.req.scope = some scope) {a : Step}
    (ha : a.actor = some p) (hact : w.act (store d.platform) (Request.code d) a = some w')
    (hne : o ≠ scope.organization_id) :
    w'.shared.db.tenant o = w.shared.db.tenant o := by
  have hsafe := Logic.safe_of_reaches (fun _ r _ _ _ _ => wp_within r) (scope_safe db) h
  have hagree := (tenantInv_of_reaches hdb h).agree
  cases a with
  | step p' c =>
    obtain rfl : p' = p := Option.some.inj ha
    simp only [Interleave.World.act] at hact
    split at hact
    · next r q k hcall =>
      obtain ⟨⟨db', x⟩, hrun, rfl⟩ := Option.map_eq_some_iff.mp hact
      obtain rfl : proc = ⟨r, some (.call q k)⟩ := Option.some.inj (hproc.symm.trans hcall)
      have hpre : ScopePre r q w.shared := (hsafe.code p' r _ hcall w.shared (.refl hsafe.inv)).1
      exact Stmt.tenant_eq hne hagree (hpre scope hscope) hrun
    · cases hact
  | fail p' x =>
    simp only [Interleave.World.act] at hact
    split at hact <;> cases hact
    rfl
  | stop p' =>
    simp only [Interleave.World.act] at hact
    split at hact <;> cases hact
    rfl
  | spawn _ _ | pass _ => cases ha

/-- The owner of organization 1 is about to delete it. -/
def deletesAcme : List Step := answersSurvey ++ [.spawn 1 (.delete_organization 1 8), .step 1 {}]

/-- Organization 3 keeps its form and the submission to it. -/
theorem confined_deletesAcme :
    ∃ w', (Deployment.sample.play anything deletesAcme .twoTenants).act (store .sample)
        (Request.code .sample) (.step 1 {}) = some w' ∧
      w'.shared.db.tenant 3 =
        (Deployment.sample.play anything deletesAcme .twoTenants).shared.db.tenant 3 := by
  obtain ⟨w', hact⟩ : ∃ w', (Deployment.sample.play anything deletesAcme .twoTenants).act
      (store .sample) (Request.code .sample) (.step 1 {}) = some w' :=
    Option.isSome_iff_exists.mp (by decide +kernel)
  obtain ⟨proc, hproc⟩ : ∃ proc,
      (Deployment.sample.play anything deletesAcme .twoTenants).procs 1 = some proc :=
    Option.isSome_iff_exists.mp (by decide +kernel)
  have hscope : ((Deployment.sample.play anything deletesAcme .twoTenants).procs 1).bind
      (fun proc => proc.req.scope) = some ⟨1, 8⟩ := by decide +kernel
  rw [hproc] at hscope
  exact ⟨w', hact, confined separated_twoTenants
    (Deployment.sample.reaches_play anything deletesAcme _) hproc hscope rfl hact (by decide)⟩

/-- What was found among the rows of an organization is the organization's. -/
theorem owner_of_find {ρ : Type} {rows : List ρ} {own : ρ → Uuid} {id : Uuid} {sel : ρ → Bool}
    (ho : o ∈ (rows.find? fun r => own r == id && sel r).toList.map own) : o = id := by
  obtain ⟨r, hr, rfl⟩ := List.mem_map.mp ho
  have hsel := List.find?_some (Option.mem_toList.mp hr)
  exact owner_of_where hsel

/-- What was selected among the rows of an organization is the organization's. -/
theorem owner_of_filter {ρ : Type} {rows : List ρ} {own : ρ → Uuid} {id : Uuid} {sel : ρ → Bool}
    (ho : o ∈ (rows.filter fun r => own r == id && sel r).map own) : o = id := by
  obtain ⟨r, hr, rfl⟩ := List.mem_map.mp ho
  exact owner_of_where (List.mem_filter.mp hr).2

theorem owner_of_membership {organization_id user_id : Uuid}
    (ho : o ∈ (db.organization_members.find? (organization_id, user_id)).toList.map
      (·.organization_id)) : o = organization_id := by
  obtain ⟨m, hm, rfl⟩ := List.mem_map.mp ho
  have hkey := (Table.find?_eq_some.mp (Option.mem_toList.mp hm)).2
  exact congrArg Prod.fst hkey

theorem OrganizationStmt.owner_of_shows {q : OrganizationStmt} {c : Choice} {a : q.Reply}
    {own : Uuid} {log : List Event} (hq : (Stmt.organizations q).within own log)
    (hrun : q.run p c db = some (db', .ok a)) (ho : o ∈ q.shows db a) : o = own := by
  cases q with
  | insert_organization _ _ | insert_owner _ _ _ => exact hq.elim
  | access id user_id =>
    cases hq
    cases hrun
    obtain ⟨row, hrow, ho⟩ := List.mem_flatMap.mp ho
    obtain ⟨org, horg, rfl⟩ := Option.map_eq_some_iff.mp (Option.mem_toList.mp hrow)
    have hid : org.id = own := (Table.find?_eq_some.mp horg).2
    rcases List.mem_cons.mp ho with rfl | ho
    · exact hid
    · obtain ⟨m, hm, rfl⟩ := List.mem_map.mp ho
      exact (beq_iff_eq.mp (List.mem_filter.mp hm).2).trans hid
  | lock id =>
    cases hq
    simp only [OrganizationStmt.run] at hrun
    (repeat' split at hrun) <;> cases hrun
    · exact List.mem_singleton.mp ho
    · exact absurd ho List.not_mem_nil
  | rename id name | delete id =>
    cases hq
    obtain ⟨org, horg, rfl⟩ := List.mem_map.mp ho
    exact (Table.find?_eq_some.mp (Option.mem_toList.mp horg)).2
  | role_of _ _ | member_of _ _ | remove_member _ _ =>
    cases hq
    exact owner_of_membership ho
  | upsert_member organization_id user_id role now =>
    cases hq
    obtain rfl := List.mem_singleton.mp ho
    simp only [OrganizationStmt.run] at hrun
    (repeat' split at hrun) <;> cases hrun
    · next m hfind _ => exact congrArg Prod.fst (Table.find?_eq_some.mp hfind).2
    · rfl
  | owner_count _ =>
    cases hq
    exact owner_of_filter ho

theorem FormStmt.owner_of_shows {q : FormStmt} {c : Choice} {a : q.Reply} {own : Uuid}
    {log : List Event} (hq : (Stmt.forms q).within own log)
    (hrun : q.run p c db = some (db', .ok a)) (ho : o ∈ q.shows db a) : o = own := by
  cases q with
  | create organization_id name public_id schema emails =>
    cases hq
    obtain rfl := List.mem_singleton.mp ho
    simp only [FormStmt.run] at hrun
    (repeat' split at hrun) <;> cases hrun
    rfl
  | find organization_id id =>
    cases hq
    cases hrun
    exact owner_of_find ho
  | replace_definition _ _ _ _ _ _ _ _ _ | set_status _ _ _ | set_public_id _ _ _ | delete _ _ =>
    cases hq
    exact owner_of_find ho
  | find_by_public_id _ => exact hq.elim

/-- What a statement on submissions shows, if the submissions of a form are its organization's. -/
theorem SubmissionStmt.owner_of_shows {q : SubmissionStmt} {c : Choice} {a : q.Reply} {own : Uuid}
    {log : List Event} (hq : (Stmt.submissions q).within own log)
    (hrun : q.run p c db = some (db', .ok a))
    (hform : ∀ form_id, Told (.form form_id) own log → ∀ row ∈ db.submissionsOf form_id,
      row.organization_id = own) (ho : o ∈ q.shows db a) : o = own := by
  cases q with
  | find organization_id id =>
    cases hq
    cases hrun
    exact owner_of_find ho
  | set_status _ _ _ | delete _ _ =>
    cases hq
    exact owner_of_find ho
  | page_after form_id after limit =>
    cases hrun
    obtain ⟨row, hrow, rfl⟩ := List.mem_map.mp ho
    exact hform form_id hq row (Keyset.mem_of_mem_page hrow).1
  | distinct_answer_keys form_id =>
    obtain ⟨row, hrow, rfl⟩ := List.mem_map.mp ho
    exact hform form_id hq row hrow
  | insert _ _ => exact hq.elim

theorem WebhookStmt.owner_of_shows {q : WebhookStmt} {c : Choice} {a : q.Reply} {own : Uuid}
    {log : List Event} (hq : (Stmt.webhooks q).within own log)
    (hrun : q.run p c db = some (db', .ok a)) (ho : o ∈ q.shows db a) : o = own := by
  cases q with
  | create_endpoint organization_id form_id url secret description =>
    cases hq
    obtain rfl := List.mem_singleton.mp ho
    exact (WebhookStmt.answer_create hrun).2.2.1
  | update_endpoint organization_id id changes =>
    cases hq
    simp only [WebhookStmt.run] at hrun
    (repeat' split at hrun) <;> cases hrun
    · exact absurd ho List.not_mem_nil
    · next e hfind _ _ =>
      obtain rfl := List.mem_singleton.mp ho
      have hsel := List.find?_some hfind
      exact owner_of_where hsel
  | find_endpoint _ _ | find_delivery _ _ =>
    cases hq
    cases hrun
    exact owner_of_find ho
  | set_endpoint_secret _ _ _ | delete_endpoint _ _ | form_belongs_to _ _ | requeue_delivery _ _ =>
    cases hq
    exact owner_of_find ho
  | _ => exact hq.elim

/-- What one statement shows, if the submissions of a form are its organization's. -/
theorem Stmt.owner_of_shows {P : Platform} {q : Stmt} {c : Choice} {a : q.Reply} {own : Uuid}
    {log : List Event} (hq : q.within own log) (hrun : q.run P p c db = some (db', .ok a))
    (hform : ∀ form_id, Told (.form form_id) own log → ∀ row ∈ db.submissionsOf form_id,
      row.organization_id = own) (ho : o ∈ q.shows db a) : o = own := by
  cases q with
  | organizations q => exact q.owner_of_shows hq hrun ho
  | forms q => exact q.owner_of_shows hq hrun ho
  | submissions q => exact q.owner_of_shows hq hrun hform ho
  | webhooks q => exact q.owner_of_shows hq hrun ho
  | _ => exact absurd ho List.not_mem_nil

/-- **What a request is shown is its organization's**: every row that an answer shows, or is made
of, in any run. -/
theorem disclosed_own (hdb : Separated db) (h : Reaches d anything (World.start db) w) {e : Event}
    (he : e ∈ w.shared.log) (hscope : e.req.scope = some scope) (ho : o ∈ disclosed e) :
    o = scope.organization_id := by
  have hs := tenantInv_of_reaches hdb h
  have hwithin := Logic.throughout_of_reaches (fun _ r _ _ _ _ => wp_within r) (scope_safe db) h
  obtain ⟨later, earlier, hlog⟩ := List.append_of_mem he
  have hq : e.stmt.within scope.organization_id earlier :=
    throughout_iff.mp hwithin later e earlier hlog scope hscope
  have hearlier : ∀ e' ∈ earlier, e' ∈ w.shared.log := fun e' he' =>
    hlog ▸ List.mem_append_right _ (List.mem_cons_of_mem _ he')
  -- Whoever reads submissions by their form has been told whose the form is.
  have hform : ∀ form_id, Told (.form form_id) scope.organization_id earlier →
      ∀ row ∈ e.before.submissionsOf form_id, row.organization_id = scope.organization_id := by
    intro form_id htold row hrow
    obtain ⟨hmem, hsel⟩ := List.mem_filter.mp hrow
    have hplaces : Places e.before (.form form_id) row.organization_id :=
      .submission hmem (by simp [things, beq_iff_eq.mp hsel])
    exact hs.told_unique ⟨e, he, .inr hplaces⟩ (htold.mono hearlier)
  have hanswered := h.answered e he
  obtain ⟨p, r, before, q, x⟩ := e
  cases x with
  | error failure => exact absurd ho List.not_mem_nil
  | ok a =>
    obtain ⟨c, db', hrun⟩ := hanswered a rfl
    exact Stmt.owner_of_shows hq hrun hform ho

/-- The owner of organization 3 exports the submissions to the survey. -/
def exportsSurvey : List Step :=
  answersSurvey ++ [.spawn 1 (.export_submissions 3 4 9 .csv 2), .step 1 {}, .step 1 {}, .step 1 {},
    .step 1 {}, .step 1 {}]

/-- The export shows something, and nothing but what is the organization's. -/
theorem disclosed_own_exportsSurvey :
    ∃ e ∈ (Deployment.sample.play anything exportsSurvey .twoTenants).shared.log,
      disclosed e ≠ [] ∧ ∀ o ∈ disclosed e, o = 3 := by
  have hshown : ∃ e ∈ (Deployment.sample.play anything exportsSurvey .twoTenants).shared.log,
      e.req.scope = some ⟨3, 9⟩ ∧ disclosed e ≠ [] := by decide +kernel
  obtain ⟨e, he, hscope, hsome⟩ := hshown
  exact ⟨e, he, hsome, fun o ho => disclosed_own separated_twoTenants
    (Deployment.sample.reaches_play anything exportsSurvey _) he hscope ho⟩

end Run

end SubmitSnap
