import SubmitSnap.Form.Sound
import SubmitSnap.Webhook.Delivered

/-!
# Who decides that something is owed

Whether a submission has to be announced is decided twice. The `INSERT` queues an event if an
enabled endpoint wants the form's submissions, or if the service, which has loaded the form, says
that it has addresses. The dispatcher never asks for that decision: it looks for endpoints and
addresses again. The two agree as long as they look at the same endpoints and the same form, at
the same submission, and for the first time: what has been created once is not created again.

## The argument

Both sides come down to the same question about the state: is there an enabled endpoint for the
form, or an address to write to. For the insert this is `NewSubmission.queued`, and for the
dispatcher it follows from executing it (`of_alone_dispatch`). Between the two lies a part of the
run in which everything may happen; the hypotheses say of the forms and the endpoints that they
are the same at its end, and of the submission that it is still there and has not been announced
yet.

## Main definitions

* `Queued`, `Notifies` — the two sides.

## Main results

* `of_alone_dispatch` — what a dispatch comes to.
* `queued_iff_notifies` — the two sides agree.
-/

namespace SubmitSnap

open Interleave
open Dispatcher (dispatch_submission enqueue_emails)

/-- An event for the submission `id` has been queued. -/
def Queued (id : Uuid) (log : List Event) : Prop :=
  ∃ e ∈ log, ∃ ev, writesEvent ev e ∧ ev.submission_id = id

/-- Between `db` and `db'` the submission `id` has been announced to somebody: there are new jobs on
the email queue, or there is a new delivery. -/
def Notifies (id : Uuid) (db db' : Database) : Prop :=
  (∃ jobs, db'.jobs = db.jobs ++ jobs ∧ jobs ≠ [] ∧ ∀ job ∈ jobs, job.submission_id = id) ∨
    ∃ d ∈ db'.webhook_deliveries.rows, d.submission_id = some id ∧
      db.webhook_deliveries.hasKey d.id = false

section Alone

variable {P : Platform} {d : Deployment} {p : ℕ} {c : Choice} {cs rest : ℕ → Choice}
  {db db' : Database} {ev : OutboxEvent} {row : SubmissionRecord} {form : FormRecord}
  {organization_id form_id submission_id id : Uuid} {payload : Value} {endpoints : List Uuid}

/-! ### The fan-out

The fan-out inserts a delivery for each subscriber that has none of this submission yet. The first
time there are none at all, so a subscriber means a delivery. -/

/-- The endpoints that want the submissions of a form. -/
def Database.subscribers (db : Database) (organization_id form_id : Uuid) : List Uuid :=
  (db.webhook_endpoints.rows.filter fun e =>
    e.organization_id == organization_id && e.enabled && e.form_id.all (· == form_id)).map (·.id)

theorem subscribers_ne_nil_iff :
    db.subscribers organization_id form_id ≠ [] ↔ db.wanted organization_id form_id = true := by
  unfold Database.subscribers Database.wanted
  rw [Ne, List.map_eq_nil_iff, List.filter_eq_nil_iff, List.any_eq_true]
  push Not
  rfl

theorem mem_insertDeliveries_of_mem {d : WebhookDeliveryRecord}
    (hd : d ∈ db.webhook_deliveries.rows) :
    d ∈ (db.insertDeliveries organization_id submission_id payload endpoints
      id).webhook_deliveries.rows := by
  induction endpoints generalizing db id with
  | nil => exact hd
  | cons endpoint_id rest ih =>
    rw [Database.insertDeliveries]
    refine ih ?_
    split
    · exact hd
    · exact Table.mem_insertNew_of_mem hd

/-- The first fan-out of a submission creates a delivery, if there is anybody to deliver to. -/
theorem exists_new_delivery (hnone : ∀ d ∈ db.webhook_deliveries.rows,
      d.submission_id ≠ some submission_id)
    (hkey : db.webhook_deliveries.hasKey id = false) (hne : endpoints ≠ []) :
    ∃ d ∈ (db.insertDeliveries organization_id submission_id payload endpoints
      id).webhook_deliveries.rows, d.submission_id = some submission_id ∧
        db.webhook_deliveries.hasKey d.id = false := by
  obtain ⟨endpoint_id, rest, rfl⟩ := List.exists_cons_of_ne_nil hne
  have hfirst : (db.webhook_deliveries.rows.any fun d =>
      d.endpoint_id == endpoint_id && d.submission_id == some submission_id) = false := by
    rw [List.any_eq_false]
    intro d hd
    simp [hnone d hd]
  rw [Database.insertDeliveries, hfirst, if_neg Bool.false_ne_true]
  exact ⟨_, mem_insertDeliveries_of_mem (Table.mem_insertNew.mpr (.inr ⟨rfl, hkey⟩)), rfl, hkey⟩

/-- The fan-out refuses nothing, if the endpoints, the submission and the organization are there. -/
theorem run_fan_out_insert (payload : Value)
    (hsubmission : db.submissions.hasKey submission_id = true)
    (hendpoints : ∀ id ∈ endpoints, db.webhook_endpoints.hasKey id = true)
    (horganization : db.organizations.hasKey organization_id = true) :
    ∃ n, (WebhookStmt.fan_out_insert organization_id submission_id payload endpoints).run p c db =
      if (List.range endpoints.length).all (fun i => db.unused (c.id + i)) = true then
        some (db.insertDeliveries organization_id submission_id payload endpoints c.id, .ok n)
      else none := by
  have h₁ : ¬ (endpoints ≠ [] ∧ (!db.submissions.hasKey submission_id) = true) := by
    simp [hsubmission]
  have h₂ : ¬ (endpoints.any fun id => !db.webhook_endpoints.hasKey id) = true := by
    simpa using hendpoints
  have h₃ : ¬ (endpoints ≠ [] ∧ (!db.organizations.hasKey organization_id) = true) := by
    simp [horganization]
  simp only [WebhookStmt.run]
  rw [if_neg h₁, if_neg h₂, if_neg h₃]
  exact ⟨_, rfl⟩

theorem exists_unused (db : Database) : ∃ n, ∀ i, db.unused (n + i) = true := by
  obtain ⟨n, hn⟩ : ∃ n, ∀ m ∈ db.issued, m < n := by
    induction db.issued with
    | nil => exact ⟨0, fun _ hm => absurd hm List.not_mem_nil⟩
    | cons m ms ih =>
      obtain ⟨n, hn⟩ := ih
      refine ⟨max n (m + 1), List.forall_mem_cons.mpr ⟨by omega, fun m' hm' => ?_⟩⟩
      exact (hn m' hm').trans_le (le_max_left _ _)
  refine ⟨n, fun i => decide_eq_true fun hmem => ?_⟩
  exact absurd (hn _ hmem) (Nat.not_lt.mpr (Nat.le_add_right n i))

/-! ### The whole dispatch

The dispatcher is executed on its own, in a state of a run in which nobody is in its way. What it
does is then a function of that state. -/

/-- What the dispatcher finds out about a submission. -/
def SubmissionRecord.source (row : SubmissionRecord) (form : FormRecord) : NotificationSource where
  organization_id := form.organization_id
  form_id := form.id
  form_name := form.name
  schema := form.schema
  notify_emails := form.notify_emails
  submission_id := row.id
  data := row.data
  status := row.status
  created_at := row.created_at

/-- Nothing fails, so the email is in the queue and the answer arrives. -/
theorem alone_enqueue_bind {α : Type} {f : Unit → Code Failure α} {cs : ℕ → Choice} {db : Database}
    (job : EmailJob) :
    (store P).alone p (Dispatcher.enqueue job >>= f) cs db =
      (store P).alone p (f ()) (fun n => cs (n + 2)) { db with jobs := db.jobs ++ [job] } := by
  have hpush : (store P).run p (.enqueue job) (cs 0) db =
      some ({ db with jobs := db.jobs ++ [job] }, .ok ()) := rfl
  have hreply : (store P).run p (.queue_reply job) (cs 1) { db with jobs := db.jobs ++ [job] } =
      some ({ db with jobs := db.jobs ++ [job] }, .ok ()) := rfl
  unfold Dispatcher.enqueue
  rw [Script.bind_assoc, Store.alone_query_bind hpush, Store.alone_query_bind hreply]

theorem alone_enqueue_emails (cs : ℕ → Choice) (db : Database) (source : NotificationSource) :
    ∃ rest, (store P).alone p (enqueue_emails source) cs db = some (.ok (), { db with
      jobs := db.jobs ++ source.notify_emails.map (notification_email source) }, rest) := by
  unfold enqueue_emails
  induction source.notify_emails generalizing cs db with
  | nil => exact ⟨cs, by rw [List.map_nil, List.append_nil]; rfl⟩
  | cons recipient recipients ih =>
    obtain ⟨rest, hrest⟩ := ih (fun n => cs (n + 2))
      { db with jobs := db.jobs ++ [notification_email source recipient] }
    refine ⟨rest, ?_⟩
    rw [Script.forEach, alone_enqueue_bind, hrest, List.map_cons, List.append_assoc]
    rfl

/-- The dispatcher finds the submission and its subscribers. -/
theorem alone_dispatch_eq (hrow : db.submissions.find? ev.submission_id = some row)
    (hform : db.forms.find? row.form_id = some form) :
    (store P).alone p (dispatch_submission ev) cs db = (store P).alone p
      (ask (.webhooks (.fan_out_insert form.organization_id row.id
        (webhook_payload (row.source form))
        (db.subscribers form.organization_id form.id))) >>=
        fun _ => enqueue_emails (row.source form))
      (fun n => cs (n + 2)) db := by
  have hsource : (store P).run p (.outbox (.notification_source ev.submission_id)) (cs 0) db =
      some (db, .ok (some (row.source form))) := by
    change some (db, Except.ok ((db.submissions.find? ev.submission_id).bind fun s =>
      (db.forms.find? s.form_id).bind fun f => some (s.source f))) = _
    rw [hrow, Option.bind_some, hform]
    rfl
  have hscan : (store P).run p (.webhooks (.fan_out_scan form.organization_id form.id)) (cs 1) db =
      some (db, .ok (db.clock, db.subscribers form.organization_id form.id)) := rfl
  unfold dispatch_submission
  rw [Store.alone_query_bind hsource]
  dsimp only
  unfold WebhookService.enqueue_deliveries
  rw [Script.bind_assoc, Store.alone_query_bind hscan]
  rfl

/-- **What a dispatch comes to**, if the submission, its form and its organization are there: the
endpoints get their deliveries, and the addresses their jobs. -/
theorem of_alone_dispatch
    (hrow : db.submissions.find? ev.submission_id = some row)
    (hform : db.forms.find? row.form_id = some form)
    (horganization : db.organizations.hasKey form.organization_id = true) :
    (∃ cs out, (store P).alone p (dispatch_submission ev) cs db = some out) ∧
    ∀ cs y db' rest, (store P).alone p (dispatch_submission ev) cs db = some (y, db', rest) →
      ∃ id, (db.subscribers form.organization_id form.id ≠ [] → db.unused id = true) ∧ y = .ok () ∧
        db' = { db.insertDeliveries form.organization_id row.id (webhook_payload (row.source form))
            (db.subscribers form.organization_id form.id) id with
          jobs := db.jobs ++ form.notify_emails.map (notification_email (row.source form)) } := by
  have hendpoints : ∀ id ∈ db.subscribers form.organization_id form.id,
      db.webhook_endpoints.hasKey id = true := by
    intro id hid
    obtain ⟨e, he, heq⟩ := List.mem_map.mp hid
    exact Table.hasKey_iff.mpr ⟨e, (List.mem_filter.mp he).1, heq⟩
  have hsubmission : db.submissions.hasKey row.id = true :=
    Table.hasKey_iff.mpr ⟨row, (Table.find?_eq_some.mp hrow).1, rfl⟩
  constructor
  · obtain ⟨id, hunused⟩ := exists_unused db
    obtain ⟨n, hinsert⟩ := run_fan_out_insert (p := p) (c := { id })
      (webhook_payload (row.source form)) hsubmission hendpoints horganization
    rw [if_pos (by simpa using fun i _ => hunused i)] at hinsert
    obtain ⟨rest, hrest⟩ := alone_enqueue_emails (P := P) (p := p) (fun _ => { id })
      (db.insertDeliveries form.organization_id row.id (webhook_payload (row.source form))
        (db.subscribers form.organization_id form.id) id) (row.source form)
    refine ⟨fun _ => { id }, ?_⟩
    rw [alone_dispatch_eq hrow hform, Store.alone_query_bind hinsert, hrest]
    exact ⟨_, rfl⟩
  · intro cs y db' rest h
    rw [alone_dispatch_eq hrow hform] at h
    obtain ⟨n, hinsert⟩ := run_fan_out_insert (p := p) (c := cs 2)
      (webhook_payload (row.source form)) hsubmission hendpoints horganization
    split at hinsert
    · next hunused =>
      obtain ⟨rest', hrest⟩ := alone_enqueue_emails (P := P) (p := p) (fun n => cs (n + 3))
        (db.insertDeliveries form.organization_id row.id (webhook_payload (row.source form))
          (db.subscribers form.organization_id form.id) (cs 2).id) (row.source form)
      rw [Store.alone_query_bind hinsert] at h
      have hend := hrest.symm.trans h
      cases hend
      refine ⟨(cs 2).id, fun hne => ?_, rfl, ?_⟩
      · exact List.all_eq_true.mp hunused 0 (List.mem_range.mpr (List.length_pos_iff.mpr hne))
      · obtain ⟨t, n, hframe⟩ := Database.insertDeliveries_frame db form.organization_id row.id
          (webhook_payload (row.source form)) (db.subscribers form.organization_id form.id)
          (cs 2).id
        rw [hframe]
        rfl
    · rcases Store.of_alone_query_bind h with ⟨m, db₁, hrun, -⟩ | ⟨x, hrun, -⟩ <;>
        exact nomatch hinsert.symm.trans hrun

/-- A dispatch announces the submission exactly if there is anybody to announce it to, unless it has
been announced before. -/
theorem notifies_iff {id : Uuid} (hkey : db.subscribers form.organization_id form.id ≠ [] →
      db.webhook_deliveries.hasKey id = false)
    (hnone : ∀ d ∈ db.webhook_deliveries.rows, d.submission_id ≠ some row.id)
    (hdb' : db' = { db.insertDeliveries form.organization_id row.id
      (webhook_payload (row.source form))
        (db.subscribers form.organization_id form.id) id with
      jobs := db.jobs ++ form.notify_emails.map (notification_email (row.source form)) }) :
    Notifies row.id db db' ↔
      form.notify_emails ≠ [] ∨ db.wanted form.organization_id form.id = true := by
  rw [← subscribers_ne_nil_iff]
  subst hdb'
  constructor
  · rintro (⟨jobs, hjobs, hne, -⟩ | ⟨d, hd, -, hnew⟩)
    · refine .inl fun hnil => hne ?_
      have heq := List.append_cancel_left hjobs
      rw [← heq, hnil, List.map_nil]
    · refine .inr fun hnil => ?_
      rw [hnil] at hd
      rw [Table.hasKey_eq_false] at hnew
      exact hnew d hd rfl
  · rintro (hne | hne)
    · refine .inl ⟨_, rfl, fun hnil => hne (List.map_eq_nil_iff.mp hnil), fun job hjob => ?_⟩
      obtain ⟨recipient, -, rfl⟩ := List.mem_map.mp hjob
      rfl
    · exact .inr (exists_new_delivery hnone (hkey hne) hne)

end Alone

section Run

variable {d : Deployment} {db : Database} {w : World} {p p' : ℕ} {public_id : String}
  {payload : Map} {client : ClientInfo} {referer : Option String} {a : SubmissionAccepted}
  {ev : OutboxEvent}

/-- **The insert and the dispatcher agree.** Take a submission that has been accepted and is still
stored, in any run, and let the forms and the endpoints be as they were when it was accepted, and
none of its deliveries made yet. Then an event has been queued for it if and only if a dispatch
would announce it to anybody. -/
theorem queued_iff_notifies (hdb : FormsSound d.platform db)
    (hissued : ∀ row ∈ db.submissions.rows, row.id ∈ db.issued) (hdeliveries : DeliveriesIssued db)
    (h : Reaches d anything (World.start db) w)
    (hreturned : w.Returned p (.submit public_id payload client referer) a)
    (hsame : ∀ e ∈ w.shared.log, e.pid = p → e.before.forms = w.shared.db.forms ∧
      e.before.webhook_endpoints = w.shared.db.webhook_endpoints)
    (hstored : w.shared.db.submissions.hasKey a.id = true)
    (hfirst : ∀ delivery ∈ w.shared.db.webhook_deliveries.rows,
      delivery.submission_id ≠ some a.id)
    (hev : ev.submission_id = a.id) :
    (∃ cs out, (store d.platform).alone p' (dispatch_submission ev) cs w.shared.db = some out) ∧
    ∀ cs y db' rest,
      (store d.platform).alone p' (dispatch_submission ev) cs w.shared.db = some (y, db', rest) →
      (Queued a.id w.shared.log ↔ Notifies a.id w.shared.db db') := by
  have hsound := formsSound_of_reaches hdb h
  have htraced := submissionsTraced_of_reaches hissued h
  have hunseen : DeliveriesIssued w.shared.db :=
    Regime.inv_of_reaches (I := fun s => DeliveriesIssued s.db) (fun hs he => by
      cases he with
      | fail _ => exact hs
      | run _ hrun => exact Stmt.deliveriesIssued hrun hs) (fun _ hs => hs) (fun hs => hs)
      hdeliveries h
  obtain ⟨form, db₁, n, now, db₂, row, event, db₃, writes, hload, hform, hinsert, hcommit,
    horganization_id, hform_id, hnotify, hid, hrow_form, hevent, hwrites⟩ :=
    (submitted_of_returned h hreturned).exists_insert
  -- The form and the endpoints are the ones the submission has seen.
  have hform' : form ∈ w.shared.db.forms.rows := (hsame _ hload rfl).1 ▸ hform
  have hwanted : db₂.wanted n.organization_id n.form_id =
      w.shared.db.wanted form.organization_id form.id := by
    rw [horganization_id, hform_id]
    unfold Database.wanted
    rw [(hsame _ hinsert rfl).2]
  have hqueued : Queued a.id w.shared.log ↔
      form.notify_emails ≠ [] ∨ w.shared.db.wanted form.organization_id form.id = true := by
    have howed : (n.notify || db₂.wanted n.organization_id n.form_id) = true ↔
        form.notify_emails ≠ [] ∨ w.shared.db.wanted form.organization_id form.id = true := by
      rw [hnotify, hwanted, Bool.or_eq_true, Bool.not_eq_true', List.isEmpty_eq_false_iff]
    rw [← howed]
    constructor
    · rintro ⟨e, he, ev', hwrites', hsubmission⟩
      obtain ⟨e', he', -, row', hanswer⟩ := htraced.written e he ev' hwrites'
      have hid' : row'.id = row.id := by
        rw [← (htraced.about e' he' _ hanswer ev' rfl).1, hsubmission, hid]
      have heq : some ev' = event := congrArg Prod.snd
        (htraced.once e' he' _ hinsert (row', some ev') (row, event) hanswer rfl hid').1
      rw [hevent, NewSubmission.queued] at heq
      split at heq
      · assumption
      · cases heq
    · intro hor
      rw [NewSubmission.queued, if_pos hor] at hevent
      exact ⟨_, hcommit, n.event row.id now, (hwrites _).mpr hevent, hid⟩
  -- The row that is stored is of that form.
  obtain ⟨stored, hmem, hstored_id⟩ := Table.hasKey_iff.mp hstored
  have hstored_form : stored.form_id = form.id := by
    rw [htraced.traced stored hmem _ hinsert (row, event) rfl (hid.trans hstored_id.symm),
      hrow_form,
      hform_id]
  have hfind : w.shared.db.submissions.find? ev.submission_id = some stored :=
    Table.find?_eq_some.mpr ⟨hmem, hstored_id.trans hev.symm⟩
  obtain ⟨hends, hend⟩ := of_alone_dispatch (P := d.platform) (p := p') hfind
    (Table.find?_eq_some.mpr ⟨hform', hstored_form.symm⟩) (hsound.owned form hform')
  refine ⟨hends, fun cs y db' rest halone => ?_⟩
  obtain ⟨id, hunused, -, hdb'⟩ := hend cs y db' rest halone
  rw [hqueued, ← hstored_id]
  refine (notifies_iff (fun hne => ?_) (hstored_id ▸ hfirst) hdb').symm
  rw [Table.hasKey_eq_false]
  rintro delivery hdelivery rfl
  exact of_decide_eq_true (hunused hne) (hunseen delivery hdelivery)

end Run

/-! ### A submission that is gone

By design: the dispatcher takes the event of a deleted submission for settled. -/

/-- Form 2 notifies one address. -/
def notifying : Database :=
  { Database.sample with
    forms := Table.empty.insertNew { FormRecord.sample with notify_emails := ["ada@example.org"] } }

/-- Somebody submits a name, and submission 3 is accepted. -/
def submitsName : List Step :=
  [.spawn 0 (.submit "contact" [("name", .string "Ben")] ⟨none, none⟩ none), .step 0 {}, .step 0 {},
    .step 0 {}, .step 0 { id := 3 }, .step 0 {}, .step 0 {}]

/-- An owner deletes submission 3. -/
def deletesSubmission : List Step := [.spawn 1 (.delete_submission 1 3 9), .step 1 {}, .step 1 {}]

/-- The event of submission 3. -/
def submissionEvent : OutboxEvent where
  id := 3
  organization_id := 1
  form_id := 2
  submission_id := 3
  attempts := 1
  available_at := 0
  dispatched_at := none
  last_error := none
  created_at := 0

theorem not_notifies_self {id : Uuid} {db : Database} : ¬ Notifies id db db := by
  rintro (⟨jobs, hjobs, hne, -⟩ | ⟨d, hd, -, hnew⟩)
  · exact hne (List.self_eq_append_right.mp hjobs)
  · exact Table.hasKey_eq_false.mp hnew d hd rfl

/-- **What has been deleted is not announced**: its event has been queued, and the dispatcher
settles it without telling anybody. -/
theorem not_queued_iff_notifies : ¬ ∀ w p payload a ev,
    Reaches .sample anything (World.start notifying) w →
    w.Returned p (.submit "contact" payload ⟨none, none⟩ none) a →
    (∀ e ∈ w.shared.log, e.before.forms = w.shared.db.forms ∧
      e.before.webhook_endpoints = w.shared.db.webhook_endpoints) →
    ev.submission_id = a.id → ∀ cs y db' rest,
      (store .sample).alone 2 (dispatch_submission ev) cs w.shared.db = some (y, db', rest) →
      (Queued a.id w.shared.log ↔ Notifies a.id w.shared.db db') := by
  intro hall
  let w := Deployment.sample.play anything (submitsName ++ deletesSubmission) notifying
  have hreach : Reaches .sample anything (World.start notifying) w :=
    Deployment.sample.reaches_play anything _ notifying
  have hforms : w.shared.log.map (·.before.forms) = List.replicate 8 w.shared.db.forms := by rfl
  have hendpoints : w.shared.log.map (·.before.webhook_endpoints) =
      List.replicate 8 w.shared.db.webhook_endpoints := by rfl
  obtain ⟨y, rest, halone⟩ : ∃ y rest, (store .sample).alone 2 (dispatch_submission submissionEvent)
      (fun _ => {}) w.shared.db = some (y, w.shared.db, rest) := ⟨_, _, by rfl⟩
  have hcommit : w.shared.log[3]? = some (w.shared.log.get ⟨3, by decide +kernel⟩) := by rfl
  refine not_notifies_self ((hall w 0 _ ⟨3, none, none⟩ submissionEvent hreach (by rfl)
    (fun e he => ⟨List.eq_of_mem_replicate (hforms ▸ List.mem_map_of_mem he),
      List.eq_of_mem_replicate (hendpoints ▸ List.mem_map_of_mem he)⟩) rfl _ _ _ _ halone).mp
    ⟨_, List.mem_of_getElem? hcommit, _, List.mem_cons_of_mem _ List.mem_cons_self, rfl⟩)

theorem formsSound_notifying : FormsSound .sample notifying where
  checked := by
    intro f hf
    obtain rfl := List.mem_singleton.mp hf
    decide +kernel
  owned := by
    intro f hf
    obtain rfl := List.mem_singleton.mp hf
    decide

/-- A submission that is still there is announced to the address. -/
theorem queued_iff_notifies_sample :
    let w := Deployment.sample.play anything submitsName notifying
    Queued 3 w.shared.log ∧ (∃ cs out,
      (store .sample).alone 1 (dispatch_submission submissionEvent) cs w.shared.db = some out) ∧
    ∀ cs y db' rest,
      (store .sample).alone 1 (dispatch_submission submissionEvent) cs w.shared.db =
        some (y, db', rest) →
      (Queued 3 w.shared.log ↔ Notifies 3 w.shared.db db') := by
  intro w
  have hforms : w.shared.log.map (·.before.forms) = List.replicate 6 w.shared.db.forms := by rfl
  have hendpoints : w.shared.log.map (·.before.webhook_endpoints) =
      List.replicate 6 w.shared.db.webhook_endpoints := by rfl
  have hreach : Reaches .sample anything (World.start notifying) w :=
    Deployment.sample.reaches_play anything submitsName notifying
  have hreturned : w.Returned 0 (.submit "contact" [("name", .string "Ben")] ⟨none, none⟩ none)
      ⟨3, none, none⟩ := by rfl
  have hstored : w.shared.db.submissions.hasKey 3 = true := by decide +kernel
  have hnone : w.shared.db.webhook_deliveries.rows = [] := by rfl
  have hqueued : Queued 3 w.shared.log := by
    have hcommit : w.shared.log[1]? = some (w.shared.log.get ⟨1, by decide +kernel⟩) := by rfl
    exact ⟨_, List.mem_of_getElem? hcommit, _, List.mem_cons_of_mem _ List.mem_cons_self, rfl⟩
  have hissued : ∀ row ∈ notifying.submissions.rows, row.id ∈ notifying.issued :=
    fun _ hrow => absurd hrow List.not_mem_nil
  have hdeliveries : DeliveriesIssued notifying := fun _ hrow => absurd hrow List.not_mem_nil
  have hsame : ∀ e ∈ w.shared.log, e.pid = 0 → e.before.forms = w.shared.db.forms ∧
      e.before.webhook_endpoints = w.shared.db.webhook_endpoints :=
    fun e he _ => ⟨List.eq_of_mem_replicate (hforms ▸ List.mem_map_of_mem he),
      List.eq_of_mem_replicate (hendpoints ▸ List.mem_map_of_mem he)⟩
  clear_value w
  refine ⟨hqueued, ?_⟩
  exact queued_iff_notifies (d := .sample) (a := ⟨3, none, none⟩) formsSound_notifying hissued
    hdeliveries hreach hreturned hsame hstored
    (hnone ▸ fun _ hdelivery => absurd hdelivery List.not_mem_nil) rfl

end SubmitSnap
