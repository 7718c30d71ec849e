import SubmitSnap.Form.Definition
import SubmitSnap.Webhook.Deliveries

/-!
# Updates leave alone what they do not name

Forms and endpoints are both updated in parts: a field that a request does not name is to be left
alone. An endpoint update merges inside the `UPDATE`, column by column. A form update merges in the
service, over the row it has loaded, and then writes every column; so what another request has
written to a field in between is put back to what it was.

The updatable fields are enumerated, each with its values, what a request gives it and what a row
holds, so that everything is said once for all fields. The value a field should have is the one
given last: the first hit in the trace, which is kept newest first.

## The argument

For endpoints there is nothing to go wrong: the columns that are not named are not written. For
forms, take the statement that writes the row. Each field of what is written is either named by
the request, then it is given, or it is the one that was loaded, and then it must be what the row
holds at this moment, or else it takes away what somebody else has given. The regime excludes just
that case, field by field (`overwritesUnnamed`). It is decided by the row before the write and by
what this process has loaded.

## Main results

* `leftAlone_of_reaches` — every field holds what it was given last, in the runs of `unmixed`.
* `not_leftAlone` — two requests that name different fields.
-/

namespace SubmitSnap

open Interleave
open Interleave.Script (ret when mapError result forEach)

/-! ### The fields

The fields are enumerated, so that what is true of one is said of all by one statement. A field
has a type of its own, and two functions: what a row holds in it, and what a request gives it. -/

/-- The updatable fields of a form. -/
inductive FormField where
  | name
  | schema
  | notify_emails
  | success_message
  | redirect_url
  | honeypot_enabled
  deriving DecidableEq

namespace FormField

/-- What such a field holds. -/
abbrev Val : FormField → Type
  | name => String
  | schema => FormSchema
  | notify_emails => List String
  | success_message | redirect_url => Option String
  | honeypot_enabled => Bool

def get : (F : FormField) → FormRecord → F.Val
  | name, f => f.name
  | schema, f => f.schema
  | notify_emails, f => f.notify_emails
  | success_message, f => f.success_message
  | redirect_url, f => f.redirect_url
  | honeypot_enabled, f => f.honeypot_enabled

/-- What a request gives the field, if it names it. -/
def named : (F : FormField) → UpdateFormRequest → Option F.Val
  | name, r => r.name.map trim
  | schema, r => r.schema
  | notify_emails, r => r.notify_emails
  | success_message, r => r.success_message
  | redirect_url, r => r.redirect_url
  | honeypot_enabled, r => r.honeypot_enabled

/-- What the event has given the field of the form `id`, if it is an update that was written and
names it. -/
def gave (F : FormField) (id : Uuid) : Event → Option F.Val
  | ⟨_, .update_form _ _ request _, _,
      .forms (.replace_definition _ id' _ _ _ _ _ _ _), .ok true⟩ =>
    if id' = id then F.named request else none
  | _ => none

instance (F : FormField) : DecidableEq F.Val := by
  cases F <;> (unfold Val; infer_instance)

/-- All of them. -/
def all : List FormField :=
  [name, schema, notify_emails, success_message, redirect_url, honeypot_enabled]

theorem mem_all (F : FormField) : F ∈ all := by
  cases F <;> decide

end FormField

/-- The updatable fields of an endpoint. -/
inductive EndpointField where
  | url
  | description
  | enabled
  | form_id

namespace EndpointField

/-- What such a field holds. -/
abbrev Val : EndpointField → Type
  | url => String
  | description => Option String
  | enabled => Bool
  | form_id => Option Uuid

def get : (F : EndpointField) → WebhookEndpointRecord → F.Val
  | url, e => e.url
  | description, e => e.description
  | enabled, e => e.enabled
  | form_id, e => e.form_id

/-- What the changes give the field, if they name it. -/
def named : (F : EndpointField) → EndpointChanges → Option F.Val
  | url, changes => changes.url
  | description, changes => changes.description
  | enabled, changes => changes.enabled
  | form_id, changes => changes.form_id

/-- What the event has given the field of the endpoint `id`, if it is an update that was written and
names it. -/
def gave (F : EndpointField) (id : Uuid) : Event → Option F.Val
  | ⟨_, .update_endpoint _ _ request _, _, .webhooks (.update_endpoint _ id' _), .ok (some _)⟩ =>
    if id' = id then F.named request.changes else none
  | _ => none

end EndpointField

/-- Every form and every endpoint is still there, and each of its updatable fields holds what a
written request that names it gave it last, or what it held at first. The value is a function of
the log, so the statement settles what each field holds and not only that nothing is lost. -/
structure LeftAlone (db₀ : Database) (s : State) : Prop where
  forms : ∀ f₀ ∈ db₀.forms.rows, ∃ f ∈ s.db.forms.rows, f.id = f₀.id ∧
    ∀ F : FormField, F.get f = (s.log.findSome? (F.gave f₀.id)).getD (F.get f₀)
  endpoints : ∀ e₀ ∈ db₀.webhook_endpoints.rows, ∃ e ∈ s.db.webhook_endpoints.rows, e.id = e₀.id ∧
    ∀ F : EndpointField, F.get e = (s.log.findSome? (F.gave e₀.id)).getD (F.get e₀)

/-! ### When updates mix

Whether a write takes something away can only be told from the row it meets, and that is what the
condition looks at. Two updates that name the same field do not mix in this sense: the later one
is meant to win. -/

/-- The requests that update a form or an endpoint. -/
def Request.updates : Request → Prop
  | update_form _ _ _ _ | update_endpoint _ _ _ _ => True
  | _ => False

/-- A form update is about to write a field it does not name, which is not as it has loaded it. -/
def overwritesUnnamed (p : ℕ) (s : State) : Request → Stmt → Prop
  | .update_form _ _ request _, .forms (.replace_definition organization_id id _ _ _ _ _ _ _) =>
    ∃ loaded ∈ lastFound p s.log, ∃ f ∈ s.db.forms.rows, f.organization_id = organization_id ∧
      f.id = id ∧ ∃ F ∈ FormField.all, F.named request = none ∧ F.get f ≠ F.get loaded
  | _, _ => False

/-- The runs of any number of updates in which none writes a field it does not name over what
another has written; statements may fail and processes may stop. -/
abbrev unmixed : Regime :=
  (Regime.free Request.updates).avoiding fun p r q s => overwritesUnnamed p s r q

/-- What an update has when it writes: its own request, over the row it has loaded. -/
def UpdatePre (p : ℕ) (r : Request) (s : State) : Stmt → Prop
  | .organizations (.access _ _) | .forms (.find _ _) | .webhooks (.find_endpoint _ _)
  | .webhooks (.form_belongs_to _ _) => True
  | .forms (.replace_definition organization_id id name schema _ notify_emails success_message
      redirect_url honeypot_enabled) =>
    ∃ request actor_id loaded, r = .update_form organization_id id request actor_id ∧
      lastFound p s.log = some loaded ∧
      (request.over loaded).name = name ∧ (request.over loaded).schema = schema ∧
      (request.over loaded).notify_emails = notify_emails ∧
      (request.over loaded).success_message = success_message ∧
      (request.over loaded).redirect_url = redirect_url ∧
      (request.over loaded).honeypot_enabled = honeypot_enabled
  | .webhooks (.update_endpoint organization_id id changes) =>
    ∃ request actor_id, r = .update_endpoint organization_id id request actor_id ∧
      changes = request.changes
  | _ => False

/-- The logic of updates, in any regime: what a request has loaded is its own business. -/
def updateLogic (P : Platform) (G : Regime) : Logic G (store P) :=
  .ofPre fun p r q s => UpdatePre p r s q

/-! ### One statement -/

section Statement

variable {P : Platform} {p : ℕ} {c : Choice} {r : Request} {q : Stmt} {x : Except Failure q.Reply}
  {s : State} {db₀ db' : Database}

/-- A field a request does not name is the loaded one. -/
theorem FormField.get_over (F : FormField) (request : UpdateFormRequest) (loaded : FormRecord) :
    F.get (request.over loaded) = (F.named request).getD (F.get loaded) := by
  cases F <;> rfl

theorem FormField.gave_error {F : FormField} {id : Uuid} {e : Failure} {db : Database} :
    F.gave id ⟨p, r, db, q, .error e⟩ = none := by
  unfold gave
  split
  · next heq => cases heq
  · rfl

theorem EndpointField.gave_error {F : EndpointField} {id : Uuid} {e : Failure} {db : Database} :
    F.gave id ⟨p, r, db, q, .error e⟩ = none := by
  unfold gave
  split
  · next heq => cases heq
  · rfl

/-- What a later event gives a field is what counts. -/
theorem getD_findSome?_cons {α β : Type} {give : α → Option β} {e : α} {log : List α} {v : β} :
    ((e :: log).findSome? give).getD v = (give e).getD ((log.findSome? give).getD v) := by
  rw [List.findSome?_cons]
  cases give e <;> rfl

/-- Forms that nothing is written to. -/
theorem LeftAlone.forms_kept (hs : LeftAlone db₀ s) {e : Event}
    (hforms : db'.forms = s.db.forms) (hgave : ∀ (F : FormField) id, F.gave id e = none) :
    ∀ f₀ ∈ db₀.forms.rows, ∃ f ∈ db'.forms.rows, f.id = f₀.id ∧
      ∀ F : FormField, F.get f = ((e :: s.log).findSome? (F.gave f₀.id)).getD (F.get f₀) := by
  intro f₀ hf₀
  obtain ⟨f, hf, hid, hfields⟩ := hs.forms f₀ hf₀
  refine ⟨f, hforms ▸ hf, hid, fun F => ?_⟩
  rw [getD_findSome?_cons, hgave]
  exact hfields F

/-- Endpoints that nothing is written to. -/
theorem LeftAlone.endpoints_kept (hs : LeftAlone db₀ s) {e : Event}
    (hendpoints : db'.webhook_endpoints = s.db.webhook_endpoints)
    (hgave : ∀ (F : EndpointField) id, F.gave id e = none) :
    ∀ e₀ ∈ db₀.webhook_endpoints.rows, ∃ row ∈ db'.webhook_endpoints.rows, row.id = e₀.id ∧
      ∀ F : EndpointField,
        F.get row = ((e :: s.log).findSome? (F.gave e₀.id)).getD (F.get e₀) := by
  intro e₀ he₀
  obtain ⟨row, hrow, hid, hfields⟩ := hs.endpoints e₀ he₀
  refine ⟨row, hendpoints ▸ hrow, hid, fun F => ?_⟩
  rw [getD_findSome?_cons, hgave]
  exact hfields F

/-- The form of an organization with a given id is the row with that id. -/
theorem formOf_unique {db : Database} {organization_id id : Uuid} {f g : FormRecord}
    (h : db.formOf organization_id id = some g) (hf : f ∈ db.forms.rows) (hid : f.id = id) :
    f = g ∧ f.organization_id = organization_id := by
  have hg : g ∈ db.forms.rows := List.mem_of_find?_eq_some h
  have hsel : g.organization_id = organization_id ∧ g.id = id := by
    simpa using List.find?_some h
  obtain rfl := db.forms.eq_of_key_eq hf hg (hid.trans hsel.2.symm)
  exact ⟨rfl, hsel.1⟩

/-- **A form update that is written**: the fields it names get its values, the others keep theirs,
if they are as it has loaded them. -/
theorem LeftAlone.replace (hs : LeftAlone db₀ s) {organization_id id : Uuid}
    {request : UpdateFormRequest} {loaded g : FormRecord} {e : Event}
    (hgave : ∀ (F : FormField) id', F.gave id' e = if id = id' then F.named request else none)
    (hfound : s.db.formOf organization_id id = some g) {set : FormRecord → FormRecord}
    (hwritten : db'.forms.rows = s.db.forms.rows.map fun f =>
      if f.organization_id == organization_id && f.id == id then set f else f)
    (hset : ∀ f, (set f).id = f.id)
    (hwrites : ∀ (F : FormField) f, F.get (set f) = F.get (request.over loaded))
    (hfine : ∀ f ∈ s.db.forms.rows, f.organization_id = organization_id → f.id = id →
      ∀ F : FormField, F.named request = none → F.get f = F.get loaded) :
    ∀ f₀ ∈ db₀.forms.rows, ∃ f ∈ db'.forms.rows, f.id = f₀.id ∧
      ∀ F : FormField, F.get f = ((e :: s.log).findSome? (F.gave f₀.id)).getD (F.get f₀) := by
  intro f₀ hf₀
  obtain ⟨f, hf, hid, hfields⟩ := hs.forms f₀ hf₀
  rw [hwritten]
  by_cases hthis : f.id = id
  · obtain ⟨rfl, horganization⟩ := formOf_unique hfound hf hthis
    refine ⟨set f, List.mem_map.mpr ⟨f, hf, by simp [horganization, hthis]⟩, (hset f).trans hid,
      fun F => ?_⟩
    rw [getD_findSome?_cons, hgave, if_pos (hthis.symm.trans hid), ← hfields F, hwrites, F.get_over]
    cases hnamed : F.named request with
    | some v => rfl
    | none => exact (hfine f hf horganization hthis F hnamed).symm
  · refine ⟨f, List.mem_map.mpr ⟨f, hf, by simp [hthis]⟩, hid, fun F => ?_⟩
    rw [getD_findSome?_cons, hgave, if_neg fun heq => hthis (hid.trans heq.symm)]
    exact hfields F

/-- **An endpoint update**: each column is merged where it is written. -/
theorem LeftAlone.merge (hs : LeftAlone db₀ s) {organization_id id : Uuid}
    {changes : EndpointChanges} {e : Event} {g : WebhookEndpointRecord}
    (hgave : ∀ (F : EndpointField) id', F.gave id' e = if id = id' then F.named changes else none)
    (hfound : s.db.endpointOf organization_id id = some g)
    {set : WebhookEndpointRecord → WebhookEndpointRecord}
    (hwritten : db'.webhook_endpoints.rows = s.db.webhook_endpoints.rows.map fun row =>
      if row.organization_id == organization_id && row.id == id then set row else row)
    (hset : ∀ row, (set row).id = row.id)
    (hwrites : ∀ (F : EndpointField) row, F.get (set row) = (F.named changes).getD (F.get row)) :
    ∀ e₀ ∈ db₀.webhook_endpoints.rows, ∃ row ∈ db'.webhook_endpoints.rows, row.id = e₀.id ∧
      ∀ F : EndpointField,
        F.get row = ((e :: s.log).findSome? (F.gave e₀.id)).getD (F.get e₀) := by
  intro e₀ he₀
  obtain ⟨row, hrow, hid, hfields⟩ := hs.endpoints e₀ he₀
  rw [hwritten]
  by_cases hthis : row.id = id
  · have hg : g ∈ s.db.webhook_endpoints.rows := List.mem_of_find?_eq_some hfound
    have hsel : g.organization_id = organization_id ∧ g.id = id := by
      simpa using List.find?_some hfound
    obtain rfl := s.db.webhook_endpoints.eq_of_key_eq hrow hg (hthis.trans hsel.2.symm)
    refine ⟨set row, List.mem_map.mpr ⟨row, hrow, by simp [hsel]⟩, (hset row).trans hid,
      fun F => ?_⟩
    rw [getD_findSome?_cons, hgave, if_pos (hthis.symm.trans hid), ← hfields F, hwrites]
  · refine ⟨row, List.mem_map.mpr ⟨row, hrow, by simp [hthis]⟩, hid, fun F => ?_⟩
    rw [getD_findSome?_cons, hgave, if_neg fun heq => hthis (hid.trans heq.symm)]
    exact hfields F

/-- A statement that writes nothing gives nothing. -/
theorem LeftAlone.quiet (hs : LeftAlone db₀ s) {e : Event} (hforms : db'.forms = s.db.forms)
    (hendpoints : db'.webhook_endpoints = s.db.webhook_endpoints)
    (hgave : (∀ (F : FormField) id, F.gave id e = none) ∧
      ∀ (F : EndpointField) id, F.gave id e = none) : LeftAlone db₀ ⟨db', e :: s.log⟩ :=
  ⟨hs.forms_kept hforms hgave.1, hs.endpoints_kept hendpoints hgave.2⟩

/-- Every statement of the regime keeps the property, if updates are made of what was loaded. Of
all the statements of an update two write, and each changes one row; for any other row, and for
any other statement, nothing is given and nothing changes. -/
theorem LeftAlone.effect {s' : State} (hs : LeftAlone db₀ s) (hpre : UpdatePre p r s q)
    (h : unmixed.Effect (store P) p r q s x s') : LeftAlone db₀ s' := by
  cases h with
  | fail _ =>
    exact hs.quiet rfl rfl ⟨fun _ _ => FormField.gave_error, fun _ _ => EndpointField.gave_error⟩
  | run hadmits hrun =>
    have hfine := hadmits.2
    cases q with
    | organizations q =>
      cases q with
      | access organization_id user_id =>
        cases hrun
        exact hs.quiet rfl rfl ⟨fun _ _ => by cases r <;> rfl, fun _ _ => by cases r <;> rfl⟩
      | _ => exact hpre.elim
    | forms q =>
      cases q with
      | find organization_id id =>
        cases hrun
        exact hs.quiet rfl rfl ⟨fun _ _ => by cases r <;> rfl, fun _ _ => by cases r <;> rfl⟩
      | replace_definition organization_id id name schema schema_changed notify_emails
          success_message redirect_url honeypot_enabled =>
        obtain ⟨request, actor_id, loaded, rfl, hloaded, rfl, rfl, rfl, rfl, rfl, rfl⟩ := hpre
        simp only [store, Stmt.run, FormStmt.run] at hrun
        split at hrun
        · split at hrun
          · cases hrun
            exact hs.quiet rfl rfl ⟨fun _ _ => rfl, fun _ _ => rfl⟩
          · cases hrun
            exact hs.quiet rfl rfl ⟨fun _ _ => rfl, fun _ _ => rfl⟩
          · next g hfound hchecks =>
            cases hrun
            refine ⟨hs.replace (fun _ _ => rfl) hfound rfl (fun _ => rfl)
              (fun F _ => by cases F <;> rfl) fun f hf horganization hid F hnamed => ?_,
              hs.endpoints_kept rfl fun _ _ => rfl⟩
            by_contra hne
            exact hfine ⟨loaded, hloaded, f, hf, horganization, hid, F, F.mem_all, hnamed, hne⟩
        · cases hrun
      | _ => exact hpre.elim
    | webhooks q =>
      cases q with
      | find_endpoint _ _ | form_belongs_to _ _ =>
        cases hrun
        exact hs.quiet rfl rfl ⟨fun _ _ => by cases r <;> rfl, fun _ _ => by cases r <;> rfl⟩
      | update_endpoint organization_id id changes =>
        obtain ⟨request, actor_id, rfl, rfl⟩ := hpre
        simp only [store, Stmt.run, WebhookStmt.run] at hrun
        split at hrun
        · split at hrun
          · cases hrun
            exact hs.quiet rfl rfl ⟨fun _ _ => rfl, fun _ _ => rfl⟩
          · next g hfound =>
            (repeat' split at hrun) <;> cases hrun
            · exact hs.quiet rfl rfl ⟨fun _ _ => rfl, fun _ _ => rfl⟩
            · exact hs.quiet rfl rfl ⟨fun _ _ => rfl, fun _ _ => rfl⟩
            · exact ⟨hs.forms_kept rfl fun _ _ => rfl, hs.merge (fun _ _ => rfl) hfound
                rfl (fun _ => rfl) fun F _ => by cases F <;> rfl⟩
        · cases hrun
      | _ => exact hpre.elim
    | _ => exact hpre.elim

end Statement

/-! ### The scripts -/

section Scripts

variable {d : Deployment} {G : Regime} {p : ℕ} {r : Request} {s : State} {ε α : Type}

/-- Looking an organization or a form up. -/
def Stmt.looksUp : Stmt → Prop
  | .organizations (.access _ _) | .forms (.find _ _) | .webhooks (.form_belongs_to _ _) => True
  | _ => False

theorem wp_of_looksUp {x : Code ε α} (hx : x.Issues Stmt.looksUp) :
    (updateLogic d.platform G).wp p r x (fun _ _ => True) s := by
  refine Logic.wp_of_does Stmt.looksUp (fun _ _ => True) (fun _ => True) (fun _ => True)
    (fun _ _ => trivial) (fun {q _} hq _ _ => ?_) (fun _ _ _ _ _ => ⟨trivial, trivial⟩)
    (fun _ _ => trivial) hx.does trivial
  cases q with
  | organizations q => cases q <;> trivial
  | forms q => cases q <;> trivial
  | webhooks q => cases q <;> trivial
  | _ => exact hq.elim

theorem access_looksUp (organization_id user_id : Uuid) :
    (OrganizationService.access organization_id user_id).Issues Stmt.looksUp :=
  OrganizationService.access_issues trivial

theorem manager_access_looksUp (organization_id actor_id : Uuid) :
    (FormService.manager_access organization_id actor_id).Issues Stmt.looksUp :=
  FormService.manager_access_issues trivial

theorem webhook_manager_access_looksUp (organization_id actor_id : Uuid) :
    (WebhookService.manager_access organization_id actor_id).Issues Stmt.looksUp :=
  WebhookService.manager_access_issues trivial

theorem get_looksUp (organization_id form_id actor_id : Uuid) :
    (FormService.get organization_id form_id actor_id).Issues Stmt.looksUp := by
  refine (access_looksUp organization_id actor_id).mapError.bind fun _ =>
    (Script.issues_query trivial).bind fun found => ?_
  cases found <;> trivial

theorem wp_update_form (organization_id form_id : Uuid) (request : UpdateFormRequest)
    (actor_id : Uuid) : (updateLogic d.platform G).wp p
      (.update_form organization_id form_id request actor_id)
      (FormService.update d organization_id form_id request actor_id) (fun _ _ => True) s := by
  refine Logic.wp_seq trivial (wp_of_looksUp (manager_access_looksUp _ _)) fun _ s₁ _ => ?_
  refine Logic.wp_bind trivial (wp_load fun _ => trivial) (fun loaded s₂ _ hfound => ?_)
    fun _ _ _ _ => trivial
  cases check_update d loaded (request.over loaded) with
  | error e => exact fun _ _ => trivial
  | ok _ =>
    refine Logic.wp_query_bind fun s₃ he₃ =>
      ⟨⟨request, actor_id, loaded, rfl, ?_, rfl, rfl, rfl, rfl, rfl, rfl⟩,
        fun updated s₄ _ _ => ?_, fun _ _ _ _ _ _ => trivial⟩
    · rw [lastFound_of_others he₃.others]
      exact hfound loaded rfl
    · split
      · exact fun _ _ => trivial
      · exact wp_of_looksUp (get_looksUp organization_id form_id actor_id)

theorem wp_update_endpoint (organization_id id : Uuid) (request : UpdateWebhookEndpointRequest)
    (actor_id : Uuid) : (updateLogic d.platform G).wp p
      (.update_endpoint organization_id id request actor_id)
      (WebhookService.update d organization_id id request actor_id) (fun _ _ => True) s := by
  refine Logic.wp_seq trivial (wp_of_looksUp (webhook_manager_access_looksUp _ _))
    fun _ s₁ _ => ?_
  refine Logic.wp_query_bind fun s₂ _ => ⟨trivial, fun found s₃ _ _ => ?_,
    fun _ _ _ _ _ _ => trivial⟩
  cases found with
  | none => exact fun _ _ => trivial
  | some _ =>
    refine Logic.wp_seq trivial (wp_of_looksUp (WebhookService.if_some_issues fun _ =>
      WebhookService.require_issues _)) fun _ _ _ => ?_
    refine Logic.wp_seq trivial (wp_of_looksUp (WebhookService.if_some_issues fun _ =>
      WebhookService.ensure_form_issues trivial)) fun _ _ _ => ?_
    refine Logic.wp_query_bind fun s₄ _ => ⟨⟨request, actor_id, rfl, rfl⟩, fun updated s₅ _ _ => ?_,
      fun _ _ _ _ _ _ => trivial⟩
    cases updated <;> exact fun _ _ => trivial

/-- **What an update writes is its own request**, over the row it has loaded. -/
theorem wp_updates (hr : r.updates) :
    (updateLogic d.platform G).wp p r (Request.code d r) (fun _ _ => True) s := by
  cases r with
  | update_form organization_id form_id request actor_id =>
    exact wp_update_form organization_id form_id request actor_id
  | update_endpoint organization_id id request actor_id =>
    exact wp_update_endpoint organization_id id request actor_id
  | _ => exact hr.elim

end Scripts

/-! ### Runs -/

/-- **A field that is not named is left alone**: in every run in which no form update writes such a
field over a value it has not loaded, every field of every form and every endpoint holds what a
written request that names it gave it last, or what it held at first. -/
theorem leftAlone_of_reaches {d : Deployment} {db : Database} {w : World}
    (h : Reaches d unmixed (World.start db) w) : LeftAlone db w.shared := by
  have hspec : ∀ p r s, unmixed.spawns r → (updateLogic d.platform unmixed).inv s →
      (∀ e ∈ s.log, e.pid ≠ p) →
      (updateLogic d.platform unmixed).wp p r (Request.code d r) (fun _ _ => True) s :=
    fun p r s hr _ _ => wp_updates hr
  have hstart : (updateLogic d.platform unmixed).Safe (fun _ _ _ _ => True) (World.start db) :=
    .start trivial
  have hdb : LeftAlone db (World.start db : World).shared :=
    ⟨fun f hf => ⟨f, hf, rfl, fun _ => rfl⟩, fun e he => ⟨e, he, rfl, fun _ => rfl⟩⟩
  exact Logic.inv_of_reaches hspec hstart hdb (fun _ hpre hs he => hs.effect hpre he)
    (fun _ hs => ⟨hs.forms, hs.endpoints⟩) (fun hs => ⟨hs.forms, hs.endpoints⟩) h

/-! ### Two requests that name different fields -/

instance (p : ℕ) (s : State) (r : Request) : DecidablePred (overwritesUnnamed p s r) := fun q => by
  induction r using Request.casesOn with
  | update_form =>
    induction q using Stmt.casesOn with
    | forms q => induction q using FormStmt.casesOn <;> (delta overwritesUnnamed; infer_instance)
    | _ => delta overwritesUnnamed; infer_instance
  | _ => delta overwritesUnnamed; infer_instance

instance : DecidablePred Request.updates := fun r => by
  induction r using Request.casesOn <;> (delta Request.updates; infer_instance)

/-- A manager turns the honeypot off, and has loaded the form. -/
def honeypotLoads : List Step :=
  [.spawn 0 (.update_form 1 2 { UpdateFormRequest.absent with honeypot_enabled := some false } 8),
    .step 0 {}, .step 0 {}]

/-- The other manager renames it. -/
def renames : List Step :=
  [.spawn 1 (.update_form 1 2 { UpdateFormRequest.absent with name := some "Applications" } 8),
    .step 1 {}, .step 1 {}, .step 1 {}, .step 1 {}, .step 1 {}]

/-- The first one writes. -/
def honeypotWrites : List Step := [.step 0 {}, .step 0 {}, .step 0 {}]

/-- **A rename is lost**: an update that does not name the name puts the old one back. -/
theorem not_leftAlone : ¬ ∀ w, Reaches .sample (Regime.free Request.updates)
    (World.start .sample) w → LeftAlone .sample w.shared := by
  intro hall
  obtain ⟨f, hf, -, hfields⟩ := (hall _ (Deployment.sample.reaches_play _
    (honeypotLoads ++ renames ++ honeypotWrites) .sample)).forms .sample (by decide)
  have hnames : ((Deployment.sample.play (Regime.free Request.updates)
      (honeypotLoads ++ renames ++ honeypotWrites) .sample).shared.db.forms.rows.map (·.name)) =
        ["Contact"] := by
    decide +kernel
  have hname : f.name = "Contact" := by
    have hmem := List.mem_map_of_mem (f := FormRecord.name) hf
    rw [hnames] at hmem
    exact List.mem_singleton.mp hmem
  have hgiven : ((Deployment.sample.play (Regime.free Request.updates)
      (honeypotLoads ++ renames ++ honeypotWrites) .sample).shared.log.findSome?
        (FormField.name.gave FormRecord.sample.id)) = some "Applications" := by
    decide +kernel
  have hlost := hfields .name
  rw [hgiven] at hlost
  exact absurd (hname.symm.trans hlost) (by decide)

/-- One after the other they both stand. -/
theorem leftAlone_renamedFirst :
    let w := Deployment.sample.play unmixed (renames ++ honeypotLoads ++ honeypotWrites) .sample
    (w.shared.db.forms.rows.map fun f => (f.name, f.honeypot_enabled)) =
        [("Applications", false)] ∧
      LeftAlone .sample w.shared :=
  ⟨by decide +kernel, leftAlone_of_reaches (Deployment.sample.reaches_play unmixed _ .sample)⟩

end SubmitSnap
