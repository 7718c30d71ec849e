import SubmitSnap.Form.Sound
import SubmitSnap.Form.LeftBehind
import SubmitSnap.Webhook.OutboxTable

/-!
# Things, and the rows that place them

Forms, submissions, uploads with their objects, and endpoints each belong to an organization, and
every row that refers to one of them names an organization too: its own. Nothing in the schema
makes the two agree. Here is what a row places in an organization, and which statements can make the
database place a thing where it was not placed before.

## The argument

A row places the thing it *is* and the things it refers to, each in the organization it names. So
there is one relation for all tables, and the question what a statement adds to it has few
answers: most statements only take rows away or change columns that say nothing of it
(`RowsFrom`), and those that insert or relink are listed in `Makes`. Deletes are covered by the
first kind, cascades included: what is left of a row after `SET NULL` refers to less than before.

A claim of uploads is the one statement in the list whose rows name their organization already. It
adds that these uploads belong to a submission, so that their organization gets the submission
placed in it.

## Main definitions

* `Thing`, `Tenanted` — what belongs to an organization, and what a row refers to.
* `Places` — some row places a thing in an organization.
* `Makes` — what a statement adds to that.

## Main results

* `Stmt.places` — a statement adds nothing else.
-/

namespace SubmitSnap

open Interleave

/-- What belongs to one organization. -/
inductive Thing where
  | form (id : Uuid)
  | submission (id : Uuid)
  | upload (id : Uuid)
  | object (key : String)
  | endpoint (id : Uuid)
  deriving DecidableEq, Repr

/-- Rows that name their organization, and the things they refer to. -/
class Tenanted (ρ : Type) where
  owner : ρ → Uuid
  things : ρ → List Thing

open Tenanted

instance tenantedForm : Tenanted FormRecord := ⟨fun f => f.organization_id, fun f => [.form f.id]⟩

instance tenantedSubmission : Tenanted SubmissionRecord :=
  ⟨fun row => row.organization_id, fun row => [.submission row.id, .form row.form_id]⟩

instance tenantedUpload : Tenanted FileUploadRecord :=
  ⟨fun u => u.organization_id, fun u => .upload u.id :: .object u.object_key :: .form u.form_id ::
    u.submission_id.toList.map .submission⟩

instance tenantedEndpoint : Tenanted WebhookEndpointRecord :=
  ⟨fun e => e.organization_id, fun e => .endpoint e.id :: e.form_id.toList.map .form⟩

instance tenantedDelivery : Tenanted WebhookDeliveryRecord :=
  ⟨fun d => d.organization_id,
    fun d => .endpoint d.endpoint_id :: d.submission_id.toList.map .submission⟩

instance tenantedEvent : Tenanted OutboxEvent :=
  ⟨fun ev => ev.organization_id, fun ev => [.submission ev.submission_id, .form ev.form_id]⟩

/-- Some row says that the thing belongs to the organization. -/
inductive Places (db : Database) (thing : Thing) : Uuid → Prop where
  | form {f : FormRecord} (h : f ∈ db.forms.rows) (ht : thing ∈ things f) :
    Places db thing f.organization_id
  | submission {row : SubmissionRecord} (h : row ∈ db.submissions.rows) (ht : thing ∈ things row) :
    Places db thing row.organization_id
  | upload {u : FileUploadRecord} (h : u ∈ db.file_uploads.rows) (ht : thing ∈ things u) :
    Places db thing u.organization_id
  | endpoint {e : WebhookEndpointRecord} (h : e ∈ db.webhook_endpoints.rows)
    (ht : thing ∈ things e) : Places db thing e.organization_id
  | delivery {d : WebhookDeliveryRecord} (h : d ∈ db.webhook_deliveries.rows)
    (ht : thing ∈ things d) : Places db thing d.organization_id
  | event {ev : OutboxEvent} (h : ev ∈ db.outbox_events.rows) (ht : thing ∈ things ev) :
    Places db thing ev.organization_id

/-- What a write adds to the rows. -/
def Write.Makes (db : Database) (thing : Thing) (o : Uuid) : Write → Prop
  | .submission row => thing ∈ things row ∧ row.organization_id = o
  | .outbox_event ev => thing ∈ things ev ∧ ev.organization_id = o
  | .claim_uploads ids submission_id =>
    thing = .submission submission_id ∧ ∃ id ∈ ids, Places db (.upload id) o
  | _ => False

/-- What a statement, answered `x`, adds to the rows. -/
def Makes (db : Database) (thing : Thing) (o : Uuid) : (q : Stmt) → Except Failure q.Reply → Prop
  | .forms (.create _ _ _ _ _), .ok form => thing ∈ things form ∧ form.organization_id = o
  | .uploads (.insert _), .ok row => thing ∈ things row ∧ row.organization_id = o
  | .webhooks (.create_endpoint _ _ _ _ _), .ok row => thing ∈ things row ∧ row.organization_id = o
  | .webhooks (.update_endpoint organization_id _ changes), .ok _ =>
    organization_id = o ∧ ∃ id, changes.form_id.join = some id ∧ thing = .form id
  | .webhooks (.fan_out_insert organization_id submission_id _ endpoints), .ok _ =>
    organization_id = o ∧
      (thing = .submission submission_id ∨ ∃ id ∈ endpoints, thing = .endpoint id)
  | .commit writes, .ok _ => ∃ w ∈ writes, w.Makes db thing o
  | _, _ => False

/-! ### Rows that come from rows

Most statements only ever make rows refer to less. `RowsFrom` says so for one table, whatever the
rows are; it is transitive, so a cascade is a chain of such steps. -/

/-- Every row of `rows'` is of the organization of some row of `rows`, and refers to nothing that
this one does not refer to. -/
def RowsFrom {ρ : Type} [Tenanted ρ] (rows rows' : List ρ) : Prop :=
  ∀ r' ∈ rows', ∃ r ∈ rows, owner r = owner r' ∧ things r' ⊆ things r

namespace RowsFrom

variable {ρ κ : Type} [Tenanted ρ] {key : ρ → κ} {rows rows' rows'' : List ρ} {t : Table key}

theorem refl (rows : List ρ) : RowsFrom rows rows :=
  fun r hr => ⟨r, hr, rfl, List.Subset.refl _⟩

theorem of_eq (h : rows' = rows) : RowsFrom rows rows' := h ▸ refl rows

theorem trans (h : RowsFrom rows rows') (h' : RowsFrom rows' rows'') : RowsFrom rows rows'' := by
  intro r'' hr''
  obtain ⟨r', hr', howner', hthings'⟩ := h' r'' hr''
  obtain ⟨r, hr, howner, hthings⟩ := h r' hr'
  exact ⟨r, hr, howner.trans howner', List.Subset.trans hthings' hthings⟩

theorem deleteWhere (p : ρ → Bool) : RowsFrom t.rows (t.deleteWhere p).rows :=
  fun r hr => ⟨r, (Table.mem_deleteWhere.mp hr).1, rfl, List.Subset.refl _⟩

/-- An update that adds nothing to what a row refers to. The rows of `t.updateWhere p f hf` are
spelled out so that unification does not have to find `hf`. -/
theorem updateWhere {p : ρ → Bool} {f : ρ → ρ} (howner : ∀ r, owner (f r) = owner r)
    (hthings : ∀ r, things (f r) ⊆ things r) :
    RowsFrom t.rows (t.rows.map fun r => if p r then f r else r) := by
  intro r' hr'
  obtain ⟨r, hr, ⟨-, rfl⟩ | ⟨-, rfl⟩⟩ := Table.of_mem_updateWhere hr'
  · exact ⟨r, hr, (howner r).symm, hthings r⟩
  · exact ⟨r', hr, rfl, List.Subset.refl _⟩

end RowsFrom

/-- Every row of `db'` with an organization comes from one of `db`. -/
structure TenantsFrom (db db' : Database) : Prop where
  forms : RowsFrom db.forms.rows db'.forms.rows
  submissions : RowsFrom db.submissions.rows db'.submissions.rows
  uploads : RowsFrom db.file_uploads.rows db'.file_uploads.rows
  endpoints : RowsFrom db.webhook_endpoints.rows db'.webhook_endpoints.rows
  deliveries : RowsFrom db.webhook_deliveries.rows db'.webhook_deliveries.rows
  events : RowsFrom db.outbox_events.rows db'.outbox_events.rows

namespace TenantsFrom

variable {db db₁ db' : Database} {thing : Thing} {o : Uuid}

theorem of_same (hforms : SameForms db db') (hwebhooks : SameWebhooks db db') :
    TenantsFrom db db' :=
  ⟨.of_eq (by rw [hforms.forms]), .of_eq (by rw [hforms.submissions]),
    .of_eq (by rw [hforms.file_uploads]), .of_eq (by rw [hwebhooks.webhook_endpoints]),
    .of_eq (by rw [hwebhooks.webhook_deliveries]), .of_eq (by rw [hwebhooks.outbox_events])⟩

theorem trans (h : TenantsFrom db db₁) (h' : TenantsFrom db₁ db') : TenantsFrom db db' :=
  ⟨h.forms.trans h'.forms, h.submissions.trans h'.submissions, h.uploads.trans h'.uploads,
    h.endpoints.trans h'.endpoints, h.deliveries.trans h'.deliveries, h.events.trans h'.events⟩

theorem places (h : TenantsFrom db db') (hm : Places db' thing o) : Places db thing o := by
  cases hm with
  | @form f' hf ht =>
    obtain ⟨f, hmem, howner, hthings⟩ := h.forms f' hf
    exact (show f.organization_id = f'.organization_id from howner) ▸ .form hmem (hthings ht)
  | @submission row' hrow ht =>
    obtain ⟨row, hmem, howner, hthings⟩ := h.submissions row' hrow
    exact (show row.organization_id = row'.organization_id from howner) ▸
      .submission hmem (hthings ht)
  | @upload u' hu ht =>
    obtain ⟨u, hmem, howner, hthings⟩ := h.uploads u' hu
    exact (show u.organization_id = u'.organization_id from howner) ▸ .upload hmem (hthings ht)
  | @endpoint e' he ht =>
    obtain ⟨e, hmem, howner, hthings⟩ := h.endpoints e' he
    exact (show e.organization_id = e'.organization_id from howner) ▸ .endpoint hmem (hthings ht)
  | @delivery d' hd ht =>
    obtain ⟨d, hmem, howner, hthings⟩ := h.deliveries d' hd
    exact (show d.organization_id = d'.organization_id from howner) ▸ .delivery hmem (hthings ht)
  | @event ev' hev ht =>
    obtain ⟨ev, hmem, howner, hthings⟩ := h.events ev' hev
    exact (show ev.organization_id = ev'.organization_id from howner) ▸ .event hmem (hthings ht)

end TenantsFrom

/-! ### What a delete leaves -/

namespace Database

variable (db : Database)

theorem cascadeSubmission_tenants (gone : Uuid → Bool) :
    TenantsFrom db (db.cascadeSubmission gone) := by
  refine ⟨.refl _, .deleteWhere _, .updateWhere (fun _ => rfl) fun u => ?_, .refl _,
    .updateWhere (fun _ => rfl) fun d => ?_, .refl _⟩
  · simp [things]
  · simp [things]

theorem cascadeEndpoint_tenants (gone : Uuid → Bool) :
    TenantsFrom db (db.cascadeEndpoint gone) :=
  ⟨.refl _, .refl _, .refl _, .deleteWhere _, .deleteWhere _, .refl _⟩

theorem cascadeForm_tenants (gone : Uuid → Bool) : TenantsFrom db (db.cascadeForm gone) := by
  unfold cascadeForm
  extract_lets db₁ db₂
  have h₁ : TenantsFrom db db₁ := db.cascadeSubmission_tenants _
  have h₂ : TenantsFrom db₁ db₂ := db₁.cascadeEndpoint_tenants _
  exact (h₁.trans h₂).trans
    ⟨.deleteWhere _, .refl _, .deleteWhere _, .refl _, .refl _, .refl _⟩

theorem cascadeOrganization_tenants (gone : Uuid) :
    TenantsFrom db (db.cascadeOrganization gone) := by
  unfold cascadeOrganization
  extract_lets db₁ db₂ db₃
  have h₁ : TenantsFrom db db₁ := db.cascadeForm_tenants _
  have h₂ : TenantsFrom db₁ db₂ := db₁.cascadeSubmission_tenants _
  have h₃ : TenantsFrom db₂ db₃ := db₂.cascadeEndpoint_tenants _
  exact ((h₁.trans h₂).trans h₃).trans
    ⟨.refl _, .refl _, .deleteWhere _, .refl _, .deleteWhere _, .deleteWhere _⟩

end Database

/-! ### What a statement adds -/

section Statements

variable {P : Platform} {p : ℕ} {c : Choice} {db db' : Database} {thing : Thing} {o : Uuid}

theorem Write.places {w : Write} (hm : Places (w.apply db) thing o) :
    Places db thing o ∨ w.Makes db thing o := by
  cases w with
  | submission row =>
    cases hm with
    | submission h ht =>
      rcases Table.mem_insertNew.mp h with h | ⟨rfl, -⟩
      · exact .inl (.submission h ht)
      · exact .inr ⟨ht, rfl⟩
    | form h ht => exact .inl (.form h ht)
    | upload h ht => exact .inl (.upload h ht)
    | endpoint h ht => exact .inl (.endpoint h ht)
    | delivery h ht => exact .inl (.delivery h ht)
    | event h ht => exact .inl (.event h ht)
  | outbox_event ev =>
    cases hm with
    | event h ht =>
      rcases Table.mem_insertNew.mp h with h | ⟨rfl, -⟩
      · exact .inl (.event h ht)
      · exact .inr ⟨ht, rfl⟩
    | form h ht => exact .inl (.form h ht)
    | submission h ht => exact .inl (.submission h ht)
    | upload h ht => exact .inl (.upload h ht)
    | endpoint h ht => exact .inl (.endpoint h ht)
    | delivery h ht => exact .inl (.delivery h ht)
  | claim_uploads ids submission_id =>
    cases hm with
    | upload h ht =>
      obtain ⟨u, hu, ⟨hsel, rfl⟩ | ⟨-, rfl⟩⟩ := Table.of_mem_updateWhere h
      · simp only [things, Option.toList_some, List.map_cons, List.map_nil, List.mem_cons,
          List.not_mem_nil, or_false] at ht
        rcases ht with rfl | rfl | rfl | rfl
        · exact .inl (.upload (u := u) hu (by simp [things]))
        · exact .inl (.upload (u := u) hu (by simp [things]))
        · exact .inl (.upload (u := u) hu (by simp [things]))
        · exact .inr ⟨rfl, u.id, of_decide_eq_true hsel, .upload (u := u) hu (by simp [things])⟩
      · exact .inl (.upload hu ht)
    | form h ht => exact .inl (.form h ht)
    | submission h ht => exact .inl (.submission h ht)
    | endpoint h ht => exact .inl (.endpoint h ht)
    | delivery h ht => exact .inl (.delivery h ht)
    | event h ht => exact .inl (.event h ht)
  | _ =>
    refine .inl ?_
    cases hm with
    | form h ht => exact .form h ht
    | submission h ht => exact .submission h ht
    | upload h ht => exact .upload h ht
    | endpoint h ht => exact .endpoint h ht
    | delivery h ht => exact .delivery h ht
    | event h ht => exact .event h ht

/-- No write makes an upload. -/
theorem Write.not_makes_upload {w : Write} {id : Uuid} : ¬ w.Makes db (.upload id) o := by
  cases w with
  | submission row => simp [Write.Makes, things]
  | outbox_event ev => simp [Write.Makes, things]
  | claim_uploads ids submission_id => simp [Write.Makes]
  | _ => exact False.elim

theorem Write.places_all {ws : List Write} (hm : Places (Write.applyAll db ws) thing o) :
    Places db thing o ∨ ∃ w ∈ ws, w.Makes db thing o := by
  induction ws generalizing db with
  | nil => exact .inl hm
  | cons w ws ih =>
    rcases ih hm with hm | ⟨w', hw', hmakes⟩
    · exact (Write.places hm).imp_right fun hmakes => ⟨w, List.mem_cons_self, hmakes⟩
    · refine .inr ⟨w', List.mem_cons_of_mem _ hw', ?_⟩
      cases w' with
      | claim_uploads ids submission_id =>
        obtain ⟨heq, id, hid, hm⟩ := hmakes
        exact ⟨heq, id, hid, (Write.places hm).resolve_right Write.not_makes_upload⟩
      | _ => exact hmakes

theorem Database.insertDeliveries_places {organization_id submission_id : Uuid} {payload : Value}
    {endpoints : List Uuid} {id : Uuid} (hm : Places (db.insertDeliveries organization_id
      submission_id payload endpoints id) thing o) :
    Places db thing o ∨ organization_id = o ∧
      (thing = .submission submission_id ∨ ∃ id ∈ endpoints, thing = .endpoint id) := by
  induction endpoints generalizing db id with
  | nil => exact .inl hm
  | cons endpoint_id rest ih =>
    rw [Database.insertDeliveries] at hm
    rcases ih hm with hm | ⟨heq, hsubmission | ⟨id', hid', hendpoint⟩⟩
    · split at hm
      · exact .inl hm
      cases hm with
      | delivery h ht =>
        rcases Table.mem_insertNew.mp h with h | ⟨rfl, -⟩
        · exact .inl (.delivery h ht)
        · simp only [things, Option.toList_some, List.map_cons, List.map_nil, List.mem_cons,
            List.not_mem_nil, or_false] at ht
          rcases ht with rfl | rfl
          · exact .inr ⟨rfl, .inr ⟨endpoint_id, List.mem_cons_self, rfl⟩⟩
          · exact .inr ⟨rfl, .inl rfl⟩
      | form h ht => exact .inl (.form h ht)
      | submission h ht => exact .inl (.submission h ht)
      | upload h ht => exact .inl (.upload h ht)
      | endpoint h ht => exact .inl (.endpoint h ht)
      | event h ht => exact .inl (.event h ht)
    · exact .inr ⟨heq, .inl hsubmission⟩
    · exact .inr ⟨heq, .inr ⟨id', List.mem_cons_of_mem _ hid', hendpoint⟩⟩

theorem WebhookStmt.places {q : WebhookStmt} {x : Except Failure q.Reply}
    (h : q.run p c db = some (db', x)) (hm : Places db' thing o) :
    Places db thing o ∨ Makes db thing o (.webhooks q) x := by
  have hdeliveries : RowsFrom db.webhook_deliveries.rows db'.webhook_deliveries.rows →
      (∃ ds, db' = { db with webhook_deliveries := ds }) →
      Places db thing o ∨ Makes db thing o (.webhooks q) x := by
    rintro hrows ⟨ds, hds⟩
    have hfrom : TenantsFrom db db' := by
      refine ⟨.of_eq ?_, .of_eq ?_, .of_eq ?_, .of_eq ?_, hrows, .of_eq ?_⟩ <;> rw [hds]
    exact .inl (hfrom.places hm)
  cases q with
  | create_endpoint organization_id form_id url secret description =>
    simp only [WebhookStmt.run] at h
    (repeat' split at h) <;> cases h
    · exact .inl hm
    · exact .inl hm
    · exact .inl hm
    · exact .inl hm
    cases hm with
    | endpoint he ht =>
      rcases Table.mem_insertNew.mp he with he | ⟨rfl, -⟩
      · exact .inl (.endpoint he ht)
      · exact .inr ⟨ht, rfl⟩
    | form h ht => exact .inl (.form h ht)
    | submission h ht => exact .inl (.submission h ht)
    | upload h ht => exact .inl (.upload h ht)
    | delivery h ht => exact .inl (.delivery h ht)
    | event h ht => exact .inl (.event h ht)
  | update_endpoint organization_id id changes =>
    simp only [WebhookStmt.run] at h
    (repeat' split at h) <;> cases h
    · exact .inl hm
    · exact .inl hm
    · exact .inl hm
    cases hm with
    | endpoint he ht =>
      obtain ⟨e, hmem, ⟨hsel, rfl⟩ | ⟨-, rfl⟩⟩ := Table.of_mem_updateWhere he
      · have horganization : e.organization_id = organization_id := by simp_all
        -- The form of the endpoint is the one it had, or the one it is given.
        cases hchange : changes.form_id with
        | none =>
          simp only [things, hchange, Option.getD_none] at ht
          exact .inl (.endpoint (e := e) hmem ht)
        | some form_id =>
          simp only [things, hchange, Option.getD_some, List.mem_cons, List.mem_map,
            Option.mem_toList] at ht
          rcases ht with rfl | ⟨id', hid', rfl⟩
          · exact .inl (.endpoint (e := e) hmem (by simp [things]))
          · exact .inr ⟨horganization.symm, id', by rw [hchange]; exact hid', rfl⟩
      · exact .inl (.endpoint hmem ht)
    | form h ht => exact .inl (.form h ht)
    | submission h ht => exact .inl (.submission h ht)
    | upload h ht => exact .inl (.upload h ht)
    | delivery h ht => exact .inl (.delivery h ht)
    | event h ht => exact .inl (.event h ht)
  | set_endpoint_secret organization_id id secret =>
    simp only [WebhookStmt.run] at h
    (repeat' split at h) <;> cases h
    · exact .inl hm
    · exact .inl hm
    · refine .inl (TenantsFrom.places ?_ hm)
      exact ⟨.of_eq rfl, .of_eq rfl, .of_eq rfl,
        .updateWhere (fun _ => rfl) fun _ => List.Subset.refl _, .of_eq rfl, .of_eq rfl⟩
  | delete_endpoint organization_id id =>
    simp only [WebhookStmt.run] at h
    (repeat' split at h) <;> cases h
    · exact .inl hm
    · exact .inl ((db.cascadeEndpoint_tenants _).places hm)
  | fan_out_insert organization_id submission_id payload endpoints =>
    simp only [WebhookStmt.run] at h
    (repeat' split at h) <;> cases h
    · exact .inl hm
    · exact .inl hm
    · exact .inl hm
    · exact Database.insertDeliveries_places hm
  | claim_due_deliveries _ _ | mark_delivered _ _ | record_attempt_failure _ _ _ _ _
  | requeue_delivery _ _ =>
    cases h
    exact hdeliveries (.updateWhere (fun _ => rfl) fun _ => List.Subset.refl _) ⟨_, rfl⟩
  | find_endpoint _ _ | form_belongs_to _ _ | fan_out_scan _ _ | find_delivery _ _ =>
    cases h
    exact .inl hm

/-- The tables of what belongs to an organization. -/
def tenantParts : List Part :=
  [.forms, .submissions, .file_uploads, .outbox_events, .webhook_endpoints, .webhook_deliveries]

theorem TenantsFrom.of_unreached {q : Stmt} {x : Except Failure q.Reply}
    (hq : (tenantParts.all fun part => !part.reachedBy q) = true)
    (h : q.run P p c db = some (db', x)) : TenantsFrom db db' := by
  have hsame : ∀ part ∈ tenantParts, part.Same db db' := fun part hpart =>
    Stmt.footprint part (by simpa using List.all_eq_true.mp hq part hpart) h
  simp only [tenantParts, List.forall_mem_cons] at hsame
  obtain ⟨hforms, hsubmissions, huploads, hevents, hendpoints, hdeliveries, -⟩ := hsame
  exact .of_same ⟨hforms, hsubmissions, huploads⟩ ⟨hevents, hendpoints, hdeliveries⟩

/-- **What a statement adds.** The database places only what it did before, and what the statement
makes. -/
theorem Stmt.places {q : Stmt} {x : Except Failure q.Reply} (h : q.run P p c db = some (db', x))
    (hm : Places db' thing o) : Places db thing o ∨ Makes db thing o q x := by
  have hfrom : TenantsFrom db db' → Places db thing o ∨ Makes db thing o q x :=
    fun hfrom => .inl (hfrom.places hm)
  have hsame : (tenantParts.all fun part => !part.reachedBy q) = true →
      Places db thing o ∨ Makes db thing o q x :=
    fun hq => hfrom (.of_unreached hq h)
  cases q with
  | organizations q =>
    cases q with
    | delete id =>
      simp only [Stmt.run, OrganizationStmt.run] at h
      split at h <;> cases h
      exact hfrom (db.cascadeOrganization_tenants id)
    | _ => exact hsame rfl
  | forms q =>
    cases q with
    | create organization_id name public_id schema notify_emails =>
      simp only [Stmt.run, FormStmt.run] at h
      (repeat' split at h) <;> cases h
      · exact .inl hm
      · exact .inl hm
      · exact .inl hm
      cases hm with
      | form hf ht =>
        rcases Table.mem_insertNew.mp hf with hf | ⟨rfl, -⟩
        · exact .inl (.form hf ht)
        · exact .inr ⟨ht, rfl⟩
      | submission h ht => exact .inl (.submission h ht)
      | upload h ht => exact .inl (.upload h ht)
      | endpoint h ht => exact .inl (.endpoint h ht)
      | delivery h ht => exact .inl (.delivery h ht)
      | event h ht => exact .inl (.event h ht)
    | delete organization_id id =>
      simp only [Stmt.run, FormStmt.run] at h
      (repeat' split at h) <;> cases h
      · exact .inl hm
      · exact hfrom (db.cascadeForm_tenants _)
    | replace_definition _ _ _ _ _ _ _ _ _ | set_status _ _ _ | set_public_id _ _ _ =>
      simp only [Stmt.run, FormStmt.run] at h
      (repeat' split at h) <;> cases h <;>
        first
          | exact .inl hm
          | exact hfrom ⟨.updateWhere (fun _ => rfl) fun _ => List.Subset.refl _, .refl _, .refl _,
              .refl _, .refl _, .refl _⟩
    | find _ _ | find_by_public_id _ =>
      cases h
      exact .inl hm
  | submissions q =>
    cases q with
    | delete organization_id id =>
      simp only [Stmt.run, SubmissionStmt.run] at h
      (repeat' split at h) <;> cases h
      · exact .inl hm
      · exact hfrom (db.cascadeSubmission_tenants _)
    | set_status organization_id id status =>
      simp only [Stmt.run, SubmissionStmt.run] at h
      split at h <;> cases h
      exact hfrom ⟨.refl _, .updateWhere (fun _ => rfl) fun _ => List.Subset.refl _, .refl _,
        .refl _, .refl _, .refl _⟩
    | insert _ _ | find _ _ | page_after _ _ _ | distinct_answer_keys _ =>
      simp only [Stmt.run, SubmissionStmt.run] at h
      (repeat' split at h) <;> cases h <;>
        exact hfrom (.of_same ⟨rfl, rfl, rfl⟩ ⟨rfl, rfl, rfl⟩)
  | uploads q =>
    cases q with
    | insert upload =>
      rcases UploadStmt.run_insert h with ⟨-, rfl⟩ | ⟨row, rfl, -, -, -, -, rfl⟩
      · exact .inl hm
      cases hm with
      | upload hu ht =>
        rcases Table.mem_insertNew.mp hu with hu | ⟨rfl, -⟩
        · exact .inl (.upload hu ht)
        · exact .inr ⟨ht, rfl⟩
      | form h ht => exact .inl (.form h ht)
      | submission h ht => exact .inl (.submission h ht)
      | endpoint h ht => exact .inl (.endpoint h ht)
      | delivery h ht => exact .inl (.delivery h ht)
      | event h ht => exact .inl (.event h ht)
    | lock_for_claim form_id object_keys =>
      simp only [Stmt.run, UploadStmt.run] at h
      split at h <;> cases h
      obtain ⟨ls, hls⟩ := Database.lockAll_eq p .update _ db
      rw [hls] at hm
      have hlocks : TenantsFrom db { db with locks := ls } :=
        .of_same ⟨rfl, rfl, rfl⟩ ⟨rfl, rfl, rfl⟩
      exact .inl (hlocks.places hm)
    | claim object_keys =>
      simp only [Stmt.run, UploadStmt.run] at h
      split at h <;> cases h
      obtain ⟨ls, hls⟩ := Database.lockAll_eq p .noKeyUpdate _ db
      rw [hls] at hm
      have hlocks : TenantsFrom db { db with locks := ls } :=
        .of_same ⟨rfl, rfl, rfl⟩ ⟨rfl, rfl, rfl⟩
      exact .inl (hlocks.places hm)
    | abandoned older_than limit =>
      cases h
      exact .inl hm
    | forget id =>
      simp only [Stmt.run, UploadStmt.run] at h
      split at h <;> cases h
      exact hfrom ⟨.refl _, .refl _, .deleteWhere _, .refl _, .refl _, .refl _⟩
  | webhooks q => exact WebhookStmt.places h hm
  | outbox q =>
    cases q with
    | notification_source submission_id =>
      cases h
      exact .inl hm
    | claim_due _ _ | mark_dispatched _ | reschedule _ _ _ =>
      cases h
      exact hfrom ⟨.refl _, .refl _, .refl _, .refl _, .refl _,
        .updateWhere (fun _ => rfl) fun _ => List.Subset.refl _⟩
  | commit ws =>
    cases h
    have hunlock : TenantsFrom (Write.applyAll db ws) ((Write.applyAll db ws).unlock p) :=
      .of_same ⟨rfl, rfl, rfl⟩ ⟨rfl, rfl, rfl⟩
    exact Write.places_all (hunlock.places hm)
  | _ => exact hsame rfl

end Statements

end SubmitSnap
