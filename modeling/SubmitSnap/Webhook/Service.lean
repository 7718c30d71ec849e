import SubmitSnap.Webhook.Url

/-!
# Webhooks: endpoints, redelivery, and the worker that sends

The handlers of an endpoint ask for a manager of the organization first, and then act in its name
only. The worker has no caller: it sends what it has claimed, one delivery after another, and
writes down how each went.

A request to the receiver is one statement of the store, so a worker can be stopped between the
claim, the sending and the result, and others act in between. What the receiver answered is known
to the worker only; a result that cannot be written is logged and lost, and the lease then runs
out.
-/

namespace SubmitSnap

open Interleave
open Interleave.Script (ret when mapError result forEach)

structure CreateWebhookEndpointRequest where
  url : String
  /-- Left out, the endpoint receives every form in the organization. -/
  form_id : Option Uuid
  description : Option String

/-- An absent field is left alone; an inner `none` clears the column. -/
structure UpdateWebhookEndpointRequest where
  url : Option String
  enabled : Option Bool
  form_id : Option (Option Uuid)
  description : Option (Option String)

/-- The columns that the request changes. -/
def UpdateWebhookEndpointRequest.changes (request : UpdateWebhookEndpointRequest) :
    EndpointChanges where
  url := request.url.map trim
  description := request.description
  enabled := request.enabled
  form_id := request.form_id

/-- The digits of URL-safe base64. -/
def URL_SAFE : List Char :=
  "ABCDEFGHIJKLMNOPQRSTUVWXYZabcdefghijklmnopqrstuvwxyz0123456789-_".toList

/-- The text of a token: 32 bytes, encoded without padding. -/
def SecretToken.encode (token : SecretToken) : String :=
  String.ofList ((List.range 43).map fun i =>
    URL_SAFE.getD (token.id * 4 / 64 ^ (42 - i) % 64) 'A')

namespace WebhookService

variable (d : Deployment)

/-- `access` followed by `require_manager`. -/
def manager_access (organization_id actor_id : Uuid) : Code WebhookError Unit :=
  mapError .ofOrganization do
    let standing ← OrganizationService.access organization_id actor_id
    OrganizationService.require_manager standing.role

/-- `?` on a check of the request. -/
def require {α : Type} : Except WebhookError α → Code WebhookError α
  | .ok a => ret a
  | .error e => throw e

/-- Refuses a form that is not in this organization. -/
def ensure_form_belongs_to (organization_id form_id : Uuid) : Code WebhookError Unit := do
  let found ← ask (.webhooks (.form_belongs_to organization_id form_id))
  if found then return ()
  else throw (.invalid "form_id does not name a form in this organization")

/-- `if let Some(_)` in front of a check. -/
def if_some {α : Type} (x : Option α) (check : α → Code WebhookError Unit) :
    Code WebhookError Unit :=
  match x with
  | some a => check a
  | none => ret ()

/-- Creates an endpoint and returns it with its secret. -/
def create (organization_id : Uuid) (request : CreateWebhookEndpointRequest) (actor_id : Uuid) :
    Code WebhookError (WebhookEndpointRecord × String) := do
  manager_access organization_id actor_id
  require (check_url request.url d.config.webhook_allow_private_targets)
  if_some request.form_id (ensure_form_belongs_to organization_id)
  let token ← ask .generate
  let endpoint ← ask (.webhooks (.create_endpoint organization_id request.form_id
    (trim request.url) (SecretToken.mk token).encode request.description))
  return (endpoint, (SecretToken.mk token).encode)

/-- Puts a delivery back in the queue. -/
def redeliver (organization_id delivery_id actor_id : Uuid) :
    Code WebhookError WebhookDeliveryRecord := do
  manager_access organization_id actor_id
  let found ← ask (.webhooks (.requeue_delivery organization_id delivery_id))
  if !found then throw .delivery_not_found
  else
    match ← ask (.webhooks (.find_delivery organization_id delivery_id)) with
    | none => throw .delivery_not_found
    | some row => return row

/-- Changes the columns of an endpoint that the request names. -/
def update (organization_id id : Uuid) (request : UpdateWebhookEndpointRequest) (actor_id : Uuid) :
    Code WebhookError WebhookEndpointRecord := do
  manager_access organization_id actor_id
  match ← ask (.webhooks (.find_endpoint organization_id id)) with
  | none => throw .endpoint_not_found
  | some _ =>
    if_some request.url fun url => require (check_url url d.config.webhook_allow_private_targets)
    if_some request.form_id.join (ensure_form_belongs_to organization_id)
    match ← ask (.webhooks (.update_endpoint organization_id id request.changes)) with
    | none => throw .endpoint_not_found
    | some row => return row

def delete (organization_id id actor_id : Uuid) : Code WebhookError Unit := do
  manager_access organization_id actor_id
  let found ← ask (.webhooks (.delete_endpoint organization_id id))
  if !found then throw .endpoint_not_found else return ()

/-- Issues a new signing secret. -/
def rotate_secret (organization_id id actor_id : Uuid) : Code WebhookError String := do
  manager_access organization_id actor_id
  match ← ask (.webhooks (.find_endpoint organization_id id)) with
  | none => throw .endpoint_not_found
  | some _ =>
    let token ← ask .generate
    let found ← ask (.webhooks (.set_endpoint_secret organization_id id
      (SecretToken.mk token).encode))
    if !found then throw .endpoint_not_found else return (SecretToken.mk token).encode

/-- `WebhookRepository::create_deliveries`. -/
def enqueue_deliveries {ε : Type} [Raises Failure ε] (organization_id form_id submission_id : Uuid)
    (payload : Value) : Code ε ℕ := do
  let (_, endpoints) ← ask (.webhooks (.fan_out_scan organization_id form_id))
  ask (.webhooks (.fan_out_insert organization_id submission_id payload endpoints))

end WebhookService

namespace WebhookDeliverer

/-- A result write whose own failure is only logged. -/
def record_failure (delivery : ClaimedDelivery) (response_status : Option ℕ) (error : String) :
    Code WebhookError Unit := do
  let _ ← attempt (.webhooks (.record_attempt_failure delivery.id delivery.attempts error
    (delivery_backoff_seconds delivery.attempts) response_status))
  return ()

variable (d : Deployment)

/-- Sends one delivery and writes down how it went. -/
def deliver (delivery : ClaimedDelivery) : Code WebhookError Unit := do
  match ← attempt (.post delivery.id delivery.url) with
  | .ok (.ok status) =>
    if 200 ≤ status ∧ status < 300 then do
      let _ ← attempt (.webhooks (.mark_delivered delivery.id status))
      return ()
    else record_failure delivery (some status) ("receiver answered " ++ toString status)
  | .ok (.error reason) => record_failure delivery none reason
  | .error e => record_failure delivery none (d.platform.display_failure e)

/-- One pass: a batch is claimed, then sent one after another. -/
def run_once : Code WebhookError Unit := do
  let deliveries ← ask (.webhooks
    (.claim_due_deliveries d.config.webhook_batch_size CLAIM_LEASE_SECONDS))
  forEach (deliver d) deliveries

end WebhookDeliverer

end SubmitSnap
