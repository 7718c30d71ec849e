import SubmitSnap.Webhook.Service

/-!
# The outbox dispatcher

Every step is ordered so the failure mode is the cheap one: the webhook fan-out runs first and is
idempotent, and the email is enqueued last.

An email takes two statements here, since `RPUSH` may take effect and its answer be lost:
`enqueue` puts the job on the queue and `queue_reply` is the answer. A pass that fails at the
second one has enqueued an email and does not know it.
-/

namespace SubmitSnap

open Interleave
open Interleave.Script (ret when mapError result forEach)

def SUBMISSION_RECEIVED_EVENT : String := "submission.received"

/-- The body every matching endpoint receives. Identifiers and times appear as their text. -/
def webhook_payload (source : NotificationSource) : Value :=
  .object [
    ("event", .string SUBMISSION_RECEIVED_EVENT),
    ("form", .object [
      ("id", .string (toString source.form_id)),
      ("name", .string source.form_name)]),
    ("submission", .object [
      ("created_at", .string (toString source.created_at)),
      ("data", .object source.data),
      ("id", .string (toString source.submission_id)),
      ("status", .string source.status.as_str)])]

/-- One email per recipient. -/
def notification_email (source : NotificationSource) (recipient : String) : EmailJob :=
  ⟨recipient, source.submission_id⟩

namespace Dispatcher

variable (d : Deployment)

/-- `EmailQueue::enqueue`. -/
def enqueue (job : EmailJob) : Code Failure Unit := do
  ask (.enqueue job)
  ask (.queue_reply job)

def enqueue_emails (source : NotificationSource) : Code Failure Unit :=
  forEach (fun recipient => enqueue (notification_email source recipient)) source.notify_emails

def dispatch_submission (event : OutboxEvent) : Code Failure Unit := do
  match ← ask (.outbox (.notification_source event.submission_id)) with
  -- The submission was deleted before it was dispatched: the event is settled.
  | none => return ()
  | some source => do
    let _ ← WebhookService.enqueue_deliveries source.organization_id source.form_id
      source.submission_id (webhook_payload source)
    enqueue_emails source

/-- One event of a batch: settled, or put back with a widening delay. -/
def settle (event : OutboxEvent) : Code Failure Unit := do
  match ← result (dispatch_submission event) with
  | .ok () => ask (.outbox (.mark_dispatched event.id))
  | .error (e : Failure) =>
    ask (.outbox (.reschedule event.id (d.platform.display_failure e)
      (outbox_backoff_seconds event.attempts)))

/-- One pass: a batch is claimed, then dispatched one after another. -/
def run_once : Code Failure Unit := do
  let events ← ask (.outbox (.claim_due d.config.outbox_batch_size CLAIM_LEASE_SECONDS))
  forEach (settle d) events

end Dispatcher

end SubmitSnap
