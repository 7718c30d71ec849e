import SubmitSnap.Form.Model

/-!
# Webhook endpoints, their deliveries, and the outbox

Two tables hand work to workers, and both do it in the same way: a row has the time from which it
may be claimed, a claim moves that time forward by `CLAIM_LEASE_SECONDS`, and a failed attempt
moves it to where the backoff says. The rows differ in how they end. A delivery has a status and
is given up on after `MAX_ATTEMPTS`; an event of the outbox has `dispatched_at` and is never given
up on.

A queued email is modelled by what it is about. Its subject and its text are rendered from the
submission, and no handler reads them back.
-/

namespace SubmitSnap

open Interleave

/-- Attempts before a delivery is given up on. -/
def MAX_ATTEMPTS : ℕ := 6

/-- How long a claimed delivery, or a claimed outbox event, is invisible to other workers. -/
def CLAIM_LEASE_SECONDS : ℕ := 120

inductive DeliveryStatus where
  | pending
  | delivered
  | failed
  deriving DecidableEq, Repr

/-- A row of `webhook_endpoints`. -/
structure WebhookEndpointRecord where
  id : Uuid
  organization_id : Uuid
  /-- `none` means every form in the organization. -/
  form_id : Option Uuid
  url : String
  secret : String
  description : Option String
  enabled : Bool
  created_at : Timestamp
  deriving DecidableEq, Repr

/-- A row of `webhook_deliveries`. -/
structure WebhookDeliveryRecord where
  id : Uuid
  organization_id : Uuid
  endpoint_id : Uuid
  submission_id : Option Uuid
  payload : Value
  status : DeliveryStatus
  attempts : ℕ
  response_status : Option ℕ
  last_error : Option String
  next_attempt_at : Timestamp
  created_at : Timestamp
  delivered_at : Option Timestamp

/-- What a worker is handed when it claims a delivery. -/
structure ClaimedDelivery where
  id : Uuid
  url : String
  secret : String
  payload : Value
  attempts : ℕ

/-- The delay before attempt `attempts + 1` of a delivery. -/
def delivery_backoff_seconds : ℕ → ℕ
  | 0 | 1 => 10
  | 2 => 60
  | 3 => 300
  | 4 => 1800
  | _ => 7200

/-! ### The outbox -/

/-- A row of `outbox_events`, with its payload already read: the only kind of event is
`submission_received`, and the only writer puts the two ids there. -/
structure OutboxEvent where
  id : Uuid
  organization_id : Uuid
  form_id : Uuid
  submission_id : Uuid
  attempts : ℕ
  /-- Backoff lives here: a failed dispatch is retried once this passes. -/
  available_at : Timestamp
  dispatched_at : Option Timestamp
  last_error : Option String
  created_at : Timestamp
  deriving DecidableEq, Repr

/-- The delay before a failed event is dispatched again. -/
def outbox_backoff_seconds : ℕ → ℕ
  | 0 | 1 => 5
  | 2 => 30
  | 3 => 120
  | 4 => 600
  | _ => 3600

/-- Everything a notification is rendered from: a submission joined with its form. -/
structure NotificationSource where
  organization_id : Uuid
  form_id : Uuid
  form_name : String
  schema : FormSchema
  notify_emails : List String
  submission_id : Uuid
  data : Map
  status : SubmissionStatus
  created_at : Timestamp

/-- A job on the email queue: which submission it notifies about, and whom. -/
structure EmailJob where
  recipient : String
  submission_id : Uuid
  deriving DecidableEq, Repr

end SubmitSnap
