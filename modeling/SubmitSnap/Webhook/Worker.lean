import SubmitSnap.Webhook.Delivered
import SubmitSnap.Workers

/-!
# The webhook worker: one batch, each delivery sent once

A pass claims a batch and then sends its deliveries one after another. Whatever the others do
meanwhile, the pass itself keeps to this: it claims once; it sends only what it has been handed, and
that once; and a failure it writes down carries the attempt number it was handed.

`workerLogic` turns this into preconditions of the worker's statements, so that invariants of the
delivery table can count on them in any run, with any other requests beside the workers.

## The argument

A process runs one request, so a worker that has not claimed yet has done nothing at all, and that
is what the first precondition says. After the claim it works through a list. `Batch` keeps the
list and the part that is left, and says that nothing in that part has been sent; the identifiers
of a batch are distinct, so sending the next delivery does not touch the ones after it. Everything
in it is about events of this one process, which is why no other process can disturb it.

## Main results

* `wp_run_once_worker`, `wp_worker` — the pass, and any other request, keep to the preconditions.
* `row_of_hands` — what the database held of a delivery that was handed out.
-/

namespace SubmitSnap

open Interleave

/-! ### What a worker is seen to do

What a worker has done can be told from the events: a claim names the batch it has handed out, and
a request names the delivery it was sent for. -/

/-- The event is a claim by `p`, which is handed the batch. -/
def handsOut (p : ℕ) (batch : List ClaimedDelivery) : Event → Prop
  | ⟨p', _, _, .webhooks (.claim_due_deliveries _ _), .ok ds⟩ => p' = p ∧ ds = batch
  | _ => False

/-- The event hands `p` the delivery `id`, for its attempt number `n`. -/
def hands (p : ℕ) (id : Uuid) (n : ℕ) : Event → Prop
  | ⟨p', _, _, .webhooks (.claim_due_deliveries _ _), .ok ds⟩ =>
    p' = p ∧ ∃ d ∈ ds, d.id = id ∧ d.attempts = n
  | _ => False

/-- The event is an HTTP request sent for the delivery `id`, whatever becomes of it. -/
def sends (id : Uuid) : Event → Prop
  | ⟨_, _, _, .post id' _, _⟩ => id' = id
  | _ => False

/-- What a worker's statements may count on. A failure is written down under the number of the
attempt that was handed out, with the delay that belongs to it; a request is sent for a delivery
that was handed out, and for none twice. The attempt number comes from the claim and not from the
row, which may be further on by now. -/
def WorkerPre (p : ℕ) (log : List Event) : Stmt → Prop
  | .webhooks (.claim_due_deliveries _ _) => ∀ e ∈ log, e.pid ≠ p
  | .webhooks (.record_attempt_failure id n _ delay_seconds _) =>
    (∃ e ∈ log, hands p id n e) ∧ (∀ e ∈ log, ∀ m, hands p id m e → m = n) ∧
      delay_seconds = delivery_backoff_seconds n
  | .post id _ =>
    (∃ e ∈ log, ∃ n, hands p id n e) ∧ ∀ e ∈ log, e.pid = p → ¬ sends id e
  | _ => True

section Events

variable {p p' : ℕ} {id : Uuid} {n : ℕ} {batch ds : List ClaimedDelivery} {e : Event}

theorem pid_of_handsOut (h : handsOut p batch e) : e.pid = p := by
  unfold handsOut at h
  split at h
  · exact h.1
  · exact h.elim

theorem hands_iff : hands p id n e ↔
    ∃ batch, handsOut p batch e ∧ ∃ d ∈ batch, d.id = id ∧ d.attempts = n := by
  unfold hands handsOut
  split
  · constructor
    · rintro ⟨hp, d, hd⟩
      exact ⟨_, ⟨hp, rfl⟩, d, hd⟩
    · rintro ⟨batch, ⟨hp, rfl⟩, d, hd⟩
      exact ⟨hp, d, hd⟩
  · exact ⟨False.elim, fun ⟨_, h, _⟩ => h⟩

theorem pid_of_hands (h : hands p id n e) : e.pid = p := by
  obtain ⟨batch, hout, -⟩ := hands_iff.mp h
  exact pid_of_handsOut hout

/-- A delivery is claimed by whoever is handed it. -/
theorem claimsDelivery_iff : claimsDelivery id e ↔ ∃ n, hands e.pid id n e := by
  constructor
  · intro h
    unfold claimsDelivery at h
    split at h
    · obtain ⟨d, hd, hid⟩ := h
      exact ⟨_, rfl, d, hd, hid, rfl⟩
    · exact h.elim
  · rintro ⟨n, h⟩
    unfold hands at h
    split at h
    · obtain ⟨-, d, hd, hid, -⟩ := h
      exact ⟨d, hd, hid⟩
    · exact h.elim

theorem claimsDelivery_of_hands (h : hands p id n e) : claimsDelivery id e := by
  obtain rfl := pid_of_hands h
  exact claimsDelivery_iff.mpr ⟨n, h⟩

end Events

instance (id : Uuid) : DecidablePred (claimsDelivery id) := fun e => by
  delta claimsDelivery
  split <;> infer_instance

instance (id : Uuid) : DecidablePred (sends id) := fun e => by
  delta sends
  split <;> infer_instance

/-! ### What is handed out

A claim takes the rows that are due, joins each with its endpoint and hands out the result. That
nothing is lost in the join is the foreign key, which every run preserves (`DeliveriesOwned`). -/

section Claim

variable {p : ℕ} {c : Choice} {db db' : Database} {limit lease_seconds : ℕ}
  {batch : List ClaimedDelivery}

theorem mem_dueDeliveries {d : WebhookDeliveryRecord} : d ∈ db.dueDeliveries ↔
    d ∈ db.webhook_deliveries.rows ∧ d.status = .pending ∧ d.next_attempt_at ≤ db.clock := by
  simp [Database.dueDeliveries]

/-- A claim hands out pending deliveries, each with the number of the attempt that begins. -/
theorem row_of_claimed
    (h : (WebhookStmt.claim_due_deliveries limit lease_seconds).run p c db =
      some (db', .ok batch)) {claimed : ClaimedDelivery} (hmem : claimed ∈ batch) :
    ∃ d ∈ db.dueDeliveries.take limit, d.id = claimed.id ∧ claimed.attempts = d.attempts + 1 ∧
      db.webhook_endpoints.hasKey d.endpoint_id = true := by
  cases h
  obtain ⟨d, hd, hclaimed⟩ := List.mem_filterMap.mp hmem
  obtain ⟨e, he, rfl⟩ := Option.map_eq_some_iff.mp hclaimed
  exact ⟨d, hd, rfl, rfl, Table.hasKey_iff.mpr ⟨e, Table.find?_eq_some.mp he⟩⟩

/-- A claim hands out every delivery it takes, since each has its endpoint. -/
theorem hands_of_taken {x : Except Failure (List ClaimedDelivery)}
    (h : (WebhookStmt.claim_due_deliveries limit lease_seconds).run p c db = some (db', x))
    {d : WebhookDeliveryRecord} (hd : d ∈ db.dueDeliveries.take limit)
    (howned : db.webhook_endpoints.hasKey d.endpoint_id = true) {r : Request} :
    hands p d.id (d.attempts + 1)
      ⟨p, r, db, .webhooks (.claim_due_deliveries limit lease_seconds), x⟩ := by
  cases h
  obtain ⟨e, he⟩ := Table.hasKey_iff.mp howned
  refine ⟨rfl, ⟨d.id, e.url, e.secret, d.payload, d.attempts + 1⟩, ?_, rfl, rfl⟩
  refine List.mem_filterMap.mpr ⟨d, hd, Option.map_eq_some_iff.mpr ⟨e, ?_, rfl⟩⟩
  exact Table.find?_eq_some.mpr he

/-- Whoever is seen to claim a delivery has taken its row. -/
theorem taken_of_claims {P : Platform} {q : Stmt} {x : Except Failure q.Reply} {r : Request}
    {id : Uuid} (h : q.run P p c db = some (db', x))
    (hclaims : claimsDelivery id ⟨p, r, db, q, x⟩) :
    ∃ limit lease_seconds, q = .webhooks (.claim_due_deliveries limit lease_seconds) ∧
      ∃ d ∈ db.dueDeliveries.take limit, d.id = id := by
  unfold claimsDelivery at hclaims
  split at hclaims
  · next heq =>
    cases heq
    obtain ⟨claimed, hmem, rfl⟩ := hclaims
    obtain ⟨d, hd, hid, -⟩ := row_of_claimed (p := p) (c := c) h hmem
    exact ⟨_, _, rfl, d, hd, hid⟩
  · exact hclaims.elim

/-- No delivery is handed out twice in one batch. -/
theorem nodup_of_claim
    (h : (WebhookStmt.claim_due_deliveries limit lease_seconds).run p c db =
      some (db', .ok batch)) : (batch.map (·.id)).Nodup := by
  cases h
  have hids : ((db.dueDeliveries.take limit).map (·.id)).Nodup := by
    have hrows : (db.dueDeliveries.map (·.id)).Nodup := by
      refine (((List.perm_insertionSort _ _).map _).nodup_iff).mpr ?_
      exact (List.filter_sublist.map _).nodup db.webhook_deliveries.nodup
    exact ((List.take_sublist limit _).map _).nodup hrows
  have hsub : List.Sublist
      (((db.dueDeliveries.take limit).filterMap db.claimed).map (·.id))
      ((db.dueDeliveries.take limit).map (·.id)) := by
    induction db.dueDeliveries.take limit with
    | nil => exact .slnil
    | cons d ds ih =>
      rw [List.filterMap_cons, List.map_cons]
      cases hclaimed : db.claimed d with
      | none => exact ih.cons _
      | some claimed =>
        obtain ⟨e, -, rfl⟩ := Option.map_eq_some_iff.mp hclaimed
        exact ih.cons_cons _
  exact hsub.nodup hids

end Claim

/-! ### The logic of the workers -/

/-- Nothing of the database is needed: what a worker goes by is what it has done itself. -/
def workerLogic (P : Platform) (G : Regime) : Logic G (store P) :=
  .ofPre fun p _ q s => WorkerPre p s.log q

theorem workerPre_of_served {p : ℕ} {log : List Event} {q : Stmt} (h : q.served) :
    WorkerPre p log q := by
  unfold WorkerPre
  split
  · exact h.elim
  · exact h.elim
  · exact h.elim
  · trivial

/-- `p` has claimed one batch, and has `rest` of it still to send. -/
structure Batch (p : ℕ) (batch rest : List ClaimedDelivery) (log : List Event) : Prop where
  handed : ∃ e ∈ log, handsOut p batch e
  only : ∀ e ∈ log, ∀ ds, handsOut p ds e → ds = batch
  nodup : (batch.map (·.id)).Nodup
  suffix : rest <:+ batch
  unsent : ∀ d ∈ rest, ∀ e ∈ log, e.pid = p → ¬ sends d.id e

section Batch

variable {p : ℕ} {batch rest : List ClaimedDelivery} {d : ClaimedDelivery} {log : List Event}
  {s s' : State}

theorem Batch.others (h : Batch p batch rest s.log) (ho : Others p s s') :
    Batch p batch rest s'.log where
  handed := by
    obtain ⟨e, he, hout⟩ := h.handed
    exact ⟨e, ho.mem he, hout⟩
  only e he ds hout := h.only e ((ho.mem_iff (pid_of_handsOut hout)).mp he) ds hout
  nodup := h.nodup
  suffix := h.suffix
  unsent d hd e he hp := h.unsent d hd e ((ho.mem_iff hp).mp he) hp

/-- An event that neither claims anything nor sends what is left. -/
theorem Batch.cons (h : Batch p batch rest log) {e : Event} (hclaim : ∀ ds, ¬ handsOut p ds e)
    (hsend : ∀ d ∈ rest, ¬ sends d.id e) : Batch p batch rest (e :: log) where
  handed := by
    obtain ⟨e', he', hout⟩ := h.handed
    exact ⟨e', List.mem_cons_of_mem _ he', hout⟩
  only e' he' ds hout := by
    rcases List.mem_cons.mp he' with rfl | he'
    · exact absurd hout (hclaim ds)
    · exact h.only e' he' ds hout
  nodup := h.nodup
  suffix := h.suffix
  unsent d hd e' he' hp := by
    rcases List.mem_cons.mp he' with rfl | he'
    · exact hsend d hd
    · exact h.unsent d hd e' he' hp

theorem Batch.next (h : Batch p batch (d :: rest) log) : Batch p batch rest log where
  handed := h.handed
  only := h.only
  nodup := h.nodup
  suffix := (List.suffix_cons d rest).trans h.suffix
  unsent d' hd' := h.unsent d' (List.mem_cons_of_mem _ hd')

/-- What is left of a batch does not contain the delivery that is next. -/
theorem Batch.ne_of_mem (h : Batch p batch (d :: rest) log) {d' : ClaimedDelivery}
    (hd' : d' ∈ rest) : d.id ≠ d'.id := by
  have hnodup : ((d :: rest).map (·.id)).Nodup := (h.suffix.sublist.map _).nodup h.nodup
  rw [List.map_cons, List.nodup_cons] at hnodup
  exact fun heq => hnodup.1 (heq ▸ List.mem_map_of_mem hd')

/-- A delivery of the batch has been handed out, under this number and no other. -/
theorem Batch.hands (h : Batch p batch rest log) (hd : d ∈ batch) :
    (∃ e ∈ log, hands p d.id d.attempts e) ∧
      ∀ e ∈ log, ∀ m, SubmitSnap.hands p d.id m e → m = d.attempts := by
  constructor
  · obtain ⟨e, he, hout⟩ := h.handed
    exact ⟨e, he, hands_iff.mpr ⟨batch, hout, d, hd, rfl, rfl⟩⟩
  · intro e he m hm
    obtain ⟨ds, hout, d', hd', hid, rfl⟩ := hands_iff.mp hm
    obtain rfl := h.only e he ds hout
    have heq : d' = d := List.inj_on_of_nodup_map h.nodup hd' hd hid
    rw [heq]

end Batch

section Scripts

variable {d : Deployment} {G : Regime} {p : ℕ} {r : Request} {s : State}

/-- A result write keeps what is left of the batch. -/
theorem wp_record_failure {batch rest : List ClaimedDelivery} {delivery : ClaimedDelivery}
    (hmem : delivery ∈ batch) (hs : Batch p batch rest s.log) (response_status : Option ℕ)
    (error : String) :
    (workerLogic d.platform G).wp p r
      (WebhookDeliverer.record_failure delivery response_status error)
      (fun y s' => match y with
        | .ok () => Batch p batch rest s'.log
        | .error _ => True) s := by
  refine Logic.wp_attempt_bind fun s₁ he₁ => ?_
  have hs₁ := hs.others he₁.others
  refine ⟨⟨(hs₁.hands hmem).1, (hs₁.hands hmem).2, rfl⟩, fun x s₂ hx₂ _ s₃ he₃ => ?_⟩
  refine Batch.others ?_ he₃.others
  rw [hx₂.log_eq]
  exact hs₁.cons (fun _ => nofun) fun _ _ => nofun

/-- One delivery is sent, and the rest of the batch is left. -/
theorem wp_deliver {batch rest : List ClaimedDelivery} {delivery : ClaimedDelivery}
    (hs : Batch p batch (delivery :: rest) s.log) :
    (workerLogic d.platform G).wp p r (WebhookDeliverer.deliver d delivery)
      (fun y s' => match y with
        | .ok () => Batch p batch rest s'.log
        | .error _ => True) s := by
  have hmem : delivery ∈ batch := hs.suffix.subset List.mem_cons_self
  refine Logic.wp_attempt_bind fun s₁ he₁ => ?_
  have hs₁ := hs.others he₁.others
  refine ⟨⟨?_, hs₁.unsent delivery List.mem_cons_self⟩, fun x s₂ hx₂ _ => ?_⟩
  · obtain ⟨e, he, hhands⟩ := (hs₁.hands hmem).1
    exact ⟨e, he, _, hhands⟩
  have hs₂ : Batch p batch rest s₂.log := by
    rw [hx₂.log_eq]
    exact hs₁.next.cons (fun _ => nofun) fun d' hd' hsends => hs₁.ne_of_mem hd' hsends
  rcases x with e | (reason | status)
  · exact wp_record_failure hmem hs₂ _ _
  · exact wp_record_failure hmem hs₂ _ _
  · dsimp only
    split
    · refine Logic.wp_attempt_bind fun s₃ he₃ => ⟨trivial, fun x s₄ hx₄ _ s₅ he₅ => ?_⟩
      refine Batch.others ?_ he₅.others
      rw [hx₄.log_eq]
      exact (hs₂.others he₃.others).cons (fun _ => nofun) fun _ _ => nofun
    · exact wp_record_failure hmem hs₂ _ _

/-- **A pass**: one claim, and then each delivery once. -/
theorem wp_run_once_worker (hfresh : ∀ e ∈ s.log, e.pid ≠ p) :
    (workerLogic d.platform G).wp p r (WebhookDeliverer.run_once d) (fun _ _ => True) s := by
  refine Logic.wp_query_bind fun s₁ he₁ => ?_
  have hfresh₁ : ∀ e ∈ s₁.log, e.pid ≠ p :=
    fun e he hp => hfresh e ((he₁.others.mem_iff hp).mp he) hp
  refine ⟨hfresh₁, fun batch s₂ hx₂ _ => ?_, fun _ _ _ _ _ _ => trivial⟩
  obtain ⟨-, c, db', hrun, -⟩ := hx₂.of_ok
  have hbatch : Batch p batch batch s₂.log := by
    rw [hx₂.log_eq]
    refine ⟨⟨_, List.mem_cons_self, rfl, rfl⟩, fun e he ds hout => ?_,
      nodup_of_claim (p := p) (c := c) hrun,
      List.suffix_rfl, fun d _ e he hp => ?_⟩
    · rcases List.mem_cons.mp he with rfl | he
      · exact hout.2.symm
      · exact absurd (pid_of_handsOut hout) (hfresh₁ e he)
    · rcases List.mem_cons.mp he with rfl | he
      · exact nofun
      · exact absurd hp (hfresh₁ e he)
  refine Logic.wp_forEach (fun rest s => Batch p batch rest s.log) (fun delivery rest s _ hs => ?_)
    (fun _ _ _ _ => trivial) batch s₂ trivial hbatch
  exact Logic.wp_mono (wp_deliver hs) fun y _ _ hy => by
    cases y with
    | ok _ => exact hy
    | error _ => trivial

theorem enqueue_deliveries_unclaimed (organization_id form_id submission_id : Uuid)
    (payload : Value) : (WebhookService.enqueue_deliveries organization_id form_id submission_id
      payload : Code Failure ℕ).Issues fun q => ∀ p log, WorkerPre p log q :=
  (Script.issues_query fun _ _ => trivial).bind fun _ => Script.issues_query fun _ _ => trivial

/-- The dispatcher has nothing to do with deliveries that are there already. -/
theorem dispatcher_unclaimed :
    (Dispatcher.run_once d).Issues fun q => ∀ p log, WorkerPre p log q := by
  refine (Script.issues_query fun _ _ => trivial).bind fun events =>
    Script.Issues.forEach (fun event => ?_) events
  refine Script.Issues.bind (Script.Issues.result ?_) fun outcome => ?_
  · refine (Script.issues_query fun _ _ => trivial).bind fun found => ?_
    cases found with
    | none => exact Script.issues_ret
    | some source =>
      refine (enqueue_deliveries_unclaimed _ _ _ _).bind fun _ => ?_
      exact Script.Issues.forEach (fun _ => (Script.issues_query fun _ _ => trivial).bind
        fun _ => Script.issues_query fun _ _ => trivial) _
  · cases outcome <;> exact Script.issues_query fun _ _ => trivial

/-- **Any request** keeps to the preconditions, if it starts under a new name. -/
theorem wp_worker (hfresh : ∀ e ∈ s.log, e.pid ≠ p) :
    (workerLogic d.platform G).wp p r (r.code d) (fun _ _ => True) s := by
  have hfree : ∀ {ε α : Type} {x : Code ε α},
      (x.Issues fun q => ∀ p log, WorkerPre p log q) →
      (workerLogic d.platform G).wp p r x (fun _ _ => True) s := fun hx =>
    Logic.wp_of_does (fun q => ∀ p log, WorkerPre p log q) (fun _ _ => True) (fun _ => True)
      (fun _ => True) (fun _ _ => trivial) (fun hq _ _ => hq _ _)
      (fun _ _ _ _ _ => ⟨trivial, trivial⟩) (fun _ _ => trivial) hx.does trivial
  by_cases hr : r.isPass
  · cases r with
    | deliver_webhooks => exact wp_run_once_worker hfresh
    | dispatch_outbox => exact hfree dispatcher_unclaimed
    | _ => exact hr.elim
  · exact hfree ((Request.served hr).mono fun q hq p log => workerPre_of_served hq)

end Scripts

end SubmitSnap
