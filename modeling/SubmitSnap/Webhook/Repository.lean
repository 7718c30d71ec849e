import SubmitSnap.Database

/-!
# Webhooks and outbox: the statements on endpoints, deliveries and events

`create_deliveries` picks the endpoints on its snapshot and inserts afterwards, so it is two steps;
the insert refuses nothing that is already there. The claims select with `FOR UPDATE SKIP LOCKED`
and update what they selected, which makes each of them one step.
-/

namespace SubmitSnap

open Interleave

/-- The changes an endpoint update asks for; an outer `none` leaves the column alone. -/
structure EndpointChanges where
  url : Option String
  description : Option (Option String)
  enabled : Option Bool
  form_id : Option (Option Uuid)

inductive WebhookStmt where
  | create_endpoint (organization_id : Uuid) (form_id : Option Uuid) (url secret : String)
      (description : Option String)
  | find_endpoint (organization_id id : Uuid)
  | update_endpoint (organization_id id : Uuid) (changes : EndpointChanges)
  | set_endpoint_secret (organization_id id : Uuid) (secret : String)
  | delete_endpoint (organization_id id : Uuid)
  | form_belongs_to (organization_id form_id : Uuid)
  /-- `create_deliveries`: the endpoints that want the submission. -/
  | fan_out_scan (organization_id form_id : Uuid)
  /-- `create_deliveries`: one delivery for each of them, unless it is there already. -/
  | fan_out_insert (organization_id submission_id : Uuid) (payload : Value)
      (endpoints : List Uuid)
  | claim_due_deliveries (limit lease_seconds : ℕ)
  | mark_delivered (id : Uuid) (response_status : ℕ)
  | record_attempt_failure (id : Uuid) (attempts : ℕ) (error : String) (delay_seconds : ℕ)
      (response_status : Option ℕ)
  | find_delivery (organization_id id : Uuid)
  | requeue_delivery (organization_id id : Uuid)

abbrev WebhookStmt.Reply : WebhookStmt → Type
  | create_endpoint _ _ _ _ _ => WebhookEndpointRecord
  | find_endpoint _ _ | update_endpoint _ _ _ => Option WebhookEndpointRecord
  | set_endpoint_secret _ _ _ | delete_endpoint _ _ | form_belongs_to _ _
  | record_attempt_failure _ _ _ _ _
  | requeue_delivery _ _ => Bool
  | fan_out_scan _ _ => Timestamp × List Uuid
  | fan_out_insert _ _ _ _ => ℕ
  | claim_due_deliveries _ _ => List ClaimedDelivery
  | mark_delivered _ _ => Unit
  | find_delivery _ _ => Option WebhookDeliveryRecord

namespace Database

/-- The endpoint of that organization with that id. -/
def endpointOf (db : Database) (organization_id id : Uuid) : Option WebhookEndpointRecord :=
  db.webhook_endpoints.rows.find? fun e => e.organization_id == organization_id && e.id == id

/-- `UPDATE webhook_deliveries SET … WHERE id = $1`. -/
def updateDelivery (db : Database) (id : Uuid)
    (f : WebhookDeliveryRecord → WebhookDeliveryRecord) (hf : ∀ d, (f d).id = d.id) : Database :=
  { db with webhook_deliveries := db.webhook_deliveries.updateWhere (fun d => d.id == id) f hf }

/-- One new delivery for each endpoint, with ids counting up from `id`, unless the endpoint already
has one for the submission. -/
def insertDeliveries (db : Database) (organization_id submission_id : Uuid) (payload : Value) :
    List Uuid → Uuid → Database
  | [], _ => db
  | endpoint_id :: rest, id =>
    let db :=
      if db.webhook_deliveries.rows.any fun d =>
          d.endpoint_id == endpoint_id && d.submission_id == some submission_id then db
      else
        { db.issue id with
          webhook_deliveries := db.webhook_deliveries.insertNew
            { id, organization_id, endpoint_id, submission_id := some submission_id, payload
              status := .pending, attempts := 0, response_status := none, last_error := none
              next_attempt_at := db.clock, created_at := db.clock, delivered_at := none } }
    insertDeliveries db organization_id submission_id payload rest (id + 1)

/-- The deliveries a worker may claim now, in the order they are claimed. -/
def dueDeliveries (db : Database) : List WebhookDeliveryRecord :=
  (db.webhook_deliveries.rows.filter fun d =>
    d.status == .pending && d.next_attempt_at ≤ db.clock).insertionSort
      fun d d' => d.next_attempt_at < d'.next_attempt_at ∨
        (d.next_attempt_at = d'.next_attempt_at ∧ d.id ≤ d'.id)

/-- What the worker is handed of a delivery it has claimed. -/
def claimed (db : Database) (d : WebhookDeliveryRecord) : Option ClaimedDelivery :=
  (db.webhook_endpoints.find? d.endpoint_id).map fun e =>
    ⟨d.id, e.url, e.secret, d.payload, d.attempts + 1⟩

end Database

/-- What a statement on the webhook tables does. -/
def WebhookStmt.run (p : ℕ) (c : Choice) (db : Database) :
    (q : WebhookStmt) → Option (Database × Except Failure q.Reply)
  | create_endpoint organization_id form_id url secret description =>
    if db.unused c.id && db.free p (.organization organization_id) .keyShare &&
        form_id.all (fun id => db.free p (.form id) .keyShare) then
      if secret.length < 16 then
        some (db, .error (.check "webhook_endpoints_secret_length_check"))
      else if !(starts_with url "http://" || starts_with url "https://") then
        some (db, .error (.check "webhook_endpoints_url_check"))
      else if !db.organizations.hasKey organization_id then
        some (db, .error (.foreign_key "webhook_endpoints_organization_id_fkey"))
      else if form_id.any fun id => !db.forms.hasKey id then
        some (db, .error (.foreign_key "webhook_endpoints_form_id_fkey"))
      else
        let row : WebhookEndpointRecord :=
          { id := c.id, organization_id, form_id, url, secret, description, enabled := true
            created_at := db.clock }
        some ({ db.issue c.id with webhook_endpoints := db.webhook_endpoints.insertNew row },
          .ok row)
    else none
  | find_endpoint organization_id id => some (db, .ok (db.endpointOf organization_id id))
  | update_endpoint organization_id id changes =>
    if db.free p (.webhook_endpoint id) .noKeyUpdate &&
        (changes.form_id.join).all (fun form_id => db.free p (.form form_id) .keyShare) then
      match db.endpointOf organization_id id with
      | none => some (db, .ok none)
      | some e =>
        let url := changes.url.getD e.url
        if !(starts_with url "http://" || starts_with url "https://") then
          some (db, .error (.check "webhook_endpoints_url_check"))
        else if (changes.form_id.join).any fun form_id => !db.forms.hasKey form_id then
          some (db, .error (.foreign_key "webhook_endpoints_form_id_fkey"))
        else
          let set := fun e : WebhookEndpointRecord =>
            { e with
              url := changes.url.getD e.url
              description := changes.description.getD e.description
              enabled := changes.enabled.getD e.enabled
              form_id := changes.form_id.getD e.form_id }
          some ({ db with
            webhook_endpoints := db.webhook_endpoints.updateWhere
              (fun e => e.organization_id == organization_id && e.id == id) set fun _ => rfl },
            .ok (some (set e)))
    else none
  | set_endpoint_secret organization_id id secret =>
    if db.free p (.webhook_endpoint id) .noKeyUpdate then
      match db.endpointOf organization_id id with
      | none => some (db, .ok false)
      | some _ =>
        if secret.length < 16 then
          some (db, .error (.check "webhook_endpoints_secret_length_check"))
        else
          some ({ db with
            webhook_endpoints := db.webhook_endpoints.updateWhere
              (fun e => e.organization_id == organization_id && e.id == id)
              (fun e => { e with secret := secret }) fun _ => rfl },
            .ok true)
    else none
  | delete_endpoint organization_id id =>
    match db.endpointOf organization_id id with
    | none => some (db, .ok false)
    | some _ =>
      if db.free p (.webhook_endpoint id) .update then
        some (db.cascadeEndpoint (· == id), .ok true)
      else none
  | form_belongs_to organization_id form_id =>
    some (db, .ok (db.forms.rows.any fun f =>
      f.organization_id == organization_id && f.id == form_id))
  | fan_out_scan organization_id form_id =>
    some (db, .ok (db.clock, (db.webhook_endpoints.rows.filter fun e =>
      e.organization_id == organization_id && e.enabled && e.form_id.all (· == form_id)).map
        (·.id)))
  | fan_out_insert organization_id submission_id payload endpoints =>
    if (List.range endpoints.length).all fun i => db.unused (c.id + i) then
      if endpoints ≠ [] ∧ !db.submissions.hasKey submission_id then
        some (db, .error (.foreign_key "webhook_deliveries_submission_id_fkey"))
      else if endpoints.any fun id => !db.webhook_endpoints.hasKey id then
        some (db, .error (.foreign_key "webhook_deliveries_endpoint_id_fkey"))
      else if endpoints ≠ [] ∧ !db.organizations.hasKey organization_id then
        some (db, .error (.foreign_key "webhook_deliveries_organization_id_fkey"))
      else
        let db' := db.insertDeliveries organization_id submission_id payload endpoints c.id
        some (db', .ok (db'.webhook_deliveries.rows.length - db.webhook_deliveries.rows.length))
    else none
  | claim_due_deliveries limit lease_seconds =>
    let due := db.dueDeliveries.take limit
    some ({ db with
      webhook_deliveries := db.webhook_deliveries.updateWhere
        (fun d => d.id ∈ due.map (·.id))
        (fun d =>
          { d with
            attempts := d.attempts + 1
            next_attempt_at := db.clock + seconds lease_seconds }) fun _ => rfl },
      .ok (due.filterMap db.claimed))
  | mark_delivered id response_status =>
    some (db.updateDelivery id (fun d =>
      { d with
        status := .delivered, response_status := some response_status
        delivered_at := some db.clock, last_error := none }) fun _ => rfl, .ok ())
  | record_attempt_failure id attempts error delay_seconds response_status =>
    let give_up : Bool := MAX_ATTEMPTS ≤ attempts
    some (db.updateDelivery id (fun d =>
      { d with
        status := if give_up then .failed else .pending
        response_status := response_status
        last_error := some (String.ofList (error.toList.take 500))
        next_attempt_at := db.clock + seconds delay_seconds }) fun _ => rfl,
      .ok (db.webhook_deliveries.hasKey id && give_up))
  | find_delivery organization_id id =>
    some (db, .ok (db.webhook_deliveries.rows.find? fun d =>
      d.organization_id == organization_id && d.id == id))
  | requeue_delivery organization_id id =>
    some ({ db with
      webhook_deliveries := db.webhook_deliveries.updateWhere
        (fun d => d.organization_id == organization_id && d.id == id)
        (fun d =>
          { d with status := .pending, next_attempt_at := db.clock, last_error := none })
        fun _ => rfl },
      .ok (db.webhook_deliveries.rows.any fun d =>
        d.organization_id == organization_id && d.id == id))

/-! ### `OutboxRepository` -/

inductive OutboxStmt where
  | claim_due (limit lease_seconds : ℕ)
  | mark_dispatched (id : Uuid)
  | reschedule (id : Uuid) (error : String) (delay_seconds : ℕ)
  | notification_source (submission_id : Uuid)

abbrev OutboxStmt.Reply : OutboxStmt → Type
  | claim_due _ _ => List OutboxEvent
  | mark_dispatched _ | reschedule _ _ _ => Unit
  | notification_source _ => Option NotificationSource

namespace Database

/-- `UPDATE outbox_events SET … WHERE id = $1`. -/
def updateEvent (db : Database) (id : Uuid) (f : OutboxEvent → OutboxEvent)
    (hf : ∀ e, (f e).id = e.id) : Database :=
  { db with outbox_events := db.outbox_events.updateWhere (fun e => e.id == id) f hf }

/-- The events a worker may claim now, in the order they are claimed. -/
def dueEvents (db : Database) : List OutboxEvent :=
  (db.outbox_events.rows.filter fun e =>
    e.dispatched_at.isNone && e.available_at ≤ db.clock).insertionSort
      fun e e' => e.available_at < e'.available_at ∨
        (e.available_at = e'.available_at ∧ e.id ≤ e'.id)

end Database

/-- What a statement on `outbox_events`, or the dispatcher's join, does. -/
def OutboxStmt.run (db : Database) :
    (q : OutboxStmt) → Option (Database × Except Failure q.Reply)
  | claim_due limit lease_seconds =>
    let due := db.dueEvents.take limit
    let take := fun e : OutboxEvent =>
      { e with
        attempts := e.attempts + 1
        available_at := db.clock + seconds lease_seconds }
    some ({ db with
      outbox_events := db.outbox_events.updateWhere (fun e => e.id ∈ due.map (·.id)) take
        fun _ => rfl },
      .ok (due.map take))
  | mark_dispatched id =>
    some (db.updateEvent id (fun e =>
      { e with dispatched_at := some db.clock, last_error := none }) fun _ => rfl, .ok ())
  | reschedule id error delay_seconds =>
    some (db.updateEvent id (fun e =>
      { e with
        available_at := db.clock + seconds delay_seconds
        last_error := some (String.ofList (error.toList.take 500)) }) fun _ => rfl, .ok ())
  | notification_source submission_id =>
    some (db, .ok (do
      let s ← db.submissions.find? submission_id
      let f ← db.forms.find? s.form_id
      return {
        organization_id := f.organization_id, form_id := f.id, form_name := f.name
        schema := f.schema, notify_emails := f.notify_emails, submission_id := s.id
        data := s.data, status := s.status, created_at := s.created_at }))

end SubmitSnap
