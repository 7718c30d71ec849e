import SubmitSnap.Webhook.Worker

/-!
# A disabled endpoint gets no traffic

Whether an endpoint is enabled is asked once, when a fan-out picks the endpoints of a submission. A
claim takes any pending delivery that is due, so what is pending when its endpoint is disabled, or
becomes pending afterwards, is sent all the same.

`TrafficStopped` is the property. It holds in every run in which an endpoint is disabled only when
nothing of it is pending or in a worker's hands, and no delivery of a disabled endpoint is made
pending: by a redelivery, by a failure that is to be retried, or by a fan-out that picked the
endpoint earlier. Any of the requests may arrive, and faults and crashes are allowed.

## The argument

A delivery causes traffic in two steps, the claim and the request, and between them it is in the
hands of a worker (`InHand`). So two kinds of deliveries must not belong to an endpoint that is
off: those that are pending, and those in somebody's hands, whatever the row says by then. Both
come to be so in few ways, and the regime names those in which the endpoint may be off at that
moment. Nothing else turns an endpoint off than an update that says so (`Stmt.endpoint_off`).

## Main results

* `trafficStopped_of_reaches` — the property, in the runs of `disabledAtRest`.
* `not_trafficStopped` — an endpoint disabled while one of its deliveries is waiting.
-/

namespace SubmitSnap

open Interleave

/-- The endpoint is disabled. -/
def EndpointOff (db : Database) (id : Uuid) : Prop :=
  ∃ e ∈ db.webhook_endpoints.rows, e.id = id ∧ e.enabled = false

/-- The delivery belongs to a disabled endpoint. -/
def OfDisabled (db : Database) (id : Uuid) : Prop :=
  ∃ d ∈ db.webhook_deliveries.rows, d.id = id ∧ EndpointOff db d.endpoint_id

/-- Nothing is claimed, and nothing sent, while the endpoint it belongs to is disabled. -/
structure TrafficStopped (s : State) : Prop where
  unclaimed : ∀ e ∈ s.log, ∀ id, claimsDelivery id e → ¬ OfDisabled e.before id
  unsent : ∀ e ∈ s.log, ∀ id, sends id e → ¬ OfDisabled e.before id

/-- `p` has been handed the delivery and has not sent it yet. -/
abbrev InHand (p : ℕ) (id : Uuid) : List Event → Prop :=
  Since (fun e => e.pid = p ∧ claimsDelivery id e) fun e => e.pid = p ∧ sends id e

/-- An endpoint is disabled while a delivery of it is pending or in a worker's hands, or a delivery
of a disabled endpoint is made pending. -/
def trafficAfter (s : State) : Stmt → Prop
  | .webhooks (.update_endpoint organization_id id changes) =>
    changes.enabled = some false ∧ (s.db.endpointOf organization_id id).isSome ∧
      ∃ d ∈ s.db.webhook_deliveries.rows, d.endpoint_id = id ∧
        (d.status = .pending ∨ ∃ p ∈ s.log.map (·.pid), InHand p d.id s.log)
  | .webhooks (.requeue_delivery organization_id id) =>
    ∃ d ∈ s.db.webhook_deliveries.rows, d.id = id ∧ d.organization_id = organization_id ∧
      EndpointOff s.db d.endpoint_id
  | .webhooks (.record_attempt_failure id attempts _ _ _) =>
    attempts < MAX_ATTEMPTS ∧ OfDisabled s.db id
  | .webhooks (.fan_out_insert _ submission_id _ endpoints) =>
    ∃ id ∈ endpoints, EndpointOff s.db id ∧ ∀ d ∈ s.db.webhook_deliveries.rows,
      d.endpoint_id = id → d.submission_id ≠ some submission_id
  | _ => False

/-- The runs in which endpoints are disabled at rest; any request may arrive, statements may fail
and processes may stop. -/
abbrev disabledAtRest : Regime :=
  (Regime.free fun _ => True).avoiding fun _ _ q s => trafficAfter s q

/-! ### One statement

An endpoint can only be switched off by an update, and a delivery only becomes pending in three
ways. All that has to be shown of the other statements is that they are none of these. -/

section Statement

variable {P : Platform} {p : ℕ} {c : Choice} {db db' : Database}

/-- An endpoint is disabled by an update that says so, and by nothing else. -/
theorem Stmt.endpoint_off {q : Stmt} {x : Except Failure q.Reply}
    (h : q.run P p c db = some (db', x)) {id : Uuid} (hoff : EndpointOff db' id) :
    EndpointOff db id ∨ ∃ organization_id changes,
      q = .webhooks (.update_endpoint organization_id id changes) ∧
      changes.enabled = some false ∧ (db.endpointOf organization_id id).isSome := by
  obtain ⟨e', he', rfl, henabled⟩ := hoff
  cases Stmt.endpoint_step h he' with
  | kept he => exact .inl ⟨e', he, rfl, henabled⟩
  | created _ hon _ =>
    rw [hon] at henabled
    cases henabled
  | @changed organization_id changes e hfound _ =>
    cases hchange : changes.enabled with
    | none =>
      refine .inl ⟨e, List.mem_of_find?_eq_some hfound, rfl, ?_⟩
      simpa [hchange] using henabled
    | some on =>
      have hon : on = false := by simpa [hchange] using henabled
      subst hon
      exact .inr ⟨_, _, rfl, hchange, by rw [hfound]; rfl⟩
  | @rekeyed _ _ e hfound => exact .inl ⟨e, List.mem_of_find?_eq_some hfound, rfl, henabled⟩

/-- A delivery that is claimed is pending. -/
theorem pending_of_claims {q : Stmt} {x : Except Failure q.Reply} {r : Request} {id : Uuid}
    (h : q.run P p c db = some (db', x)) (hclaims : claimsDelivery id ⟨p, r, db, q, x⟩) :
    ∃ d ∈ db.webhook_deliveries.rows, d.id = id ∧ d.status = .pending := by
  obtain ⟨limit, lease_seconds, rfl, d, hd, hid⟩ := taken_of_claims h hclaims
  obtain ⟨hrow, hstatus, -⟩ := mem_dueDeliveries.mp (List.mem_of_mem_take hd)
  exact ⟨d, hrow, hid, hstatus⟩

/-- A statement that makes a delivery pending, of an endpoint that is on. -/
theorem Stmt.pending_step {q : Stmt} {x : Except Failure q.Reply} {s : State}
    (h : q.run P p c s.db = some (db', x)) (hbad : ¬ trafficAfter s q)
    (hs : ∀ d ∈ s.db.webhook_deliveries.rows, d.status = .pending →
      ¬ EndpointOff s.db d.endpoint_id)
    {d' : WebhookDeliveryRecord} (hd' : d' ∈ db'.webhook_deliveries.rows)
    (hpending : d'.status = .pending) : ¬ EndpointOff s.db d'.endpoint_id := by
  rcases Stmt.delivery_step h hd' with ⟨d, hd, hstep⟩ | hnew
  · cases hstep with
    | kept _ => exact hs d' hd hpending
    | forgotten _ => exact hs d hd hpending
    | claimed hdue => exact hs d hd (mem_dueDeliveries.mp (List.mem_of_mem_take hdue)).2.1
    | delivered => cases hpending
    | @failed attempts =>
      by_cases hmax : MAX_ATTEMPTS ≤ attempts
      · simp [hmax] at hpending
      · exact fun hoff => hbad ⟨Nat.not_le.mp hmax, d, hd, rfl, hoff⟩
    | requeued => exact fun hoff => hbad ⟨d, hd, rfl, rfl, hoff⟩
  · obtain ⟨_, _, _, _, rfl, hmem, hnone⟩ := hnew.fan_out
    exact fun hoff => hbad ⟨_, hmem, hoff, hnone⟩

end Statement

/-! ### Every run -/

/-- The property, with what it takes to keep it: what is pending, or has been handed out and not
sent, belongs to an endpoint that is on. The second kind has to be listed by itself, since a
delivery may be settled by somebody else while a worker still has it to send. -/
structure DisabledInv (s : State) : Prop where
  stopped : TrafficStopped s
  issued : DeliveriesIssued s.db
  pending : ∀ d ∈ s.db.webhook_deliveries.rows, d.status = .pending →
    ¬ EndpointOff s.db d.endpoint_id
  inHand : ∀ d ∈ s.db.webhook_deliveries.rows, ∀ p, InHand p d.id s.log →
    ¬ EndpointOff s.db d.endpoint_id
  handed : ∀ p id, InHand p id s.log → id ∈ s.db.issued

section Run

variable {P : Platform} {p : ℕ} {r : Request} {q : Stmt} {x : Except Failure q.Reply}
  {s s' : State}

/-- Only what has been claimed is in somebody's hands. -/
theorem inHand_of_cons {p' : ℕ} {id : Uuid} {e : Event} {log : List Event}
    (h : InHand p' id (e :: log)) : claimsDelivery id e ∨ InHand p' id log := by
  rcases h with ⟨-, hclaims⟩ | ⟨-, h⟩
  · exact .inl hclaims
  · exact .inr h

/-- What a worker may send is in its hands. -/
theorem inHand_of_sends {log : List Event} {id : Uuid} {url : String}
    (hpre : WorkerPre p log (.post id url)) : InHand p id log := by
  obtain ⟨⟨e, he, n, hhands⟩, hunsent⟩ := hpre
  obtain ⟨later, earlier, rfl⟩ := List.append_of_mem he
  refine since_iff.mpr ⟨later, e, earlier, rfl, ⟨pid_of_hands hhands,
    claimsDelivery_of_hands hhands⟩, fun e' he' hsent => ?_⟩
  exact hunsent e' (List.mem_append_left _ he') hsent.1 hsent.2

/-- A delivery of an endpoint that is on is not one of a disabled endpoint. -/
theorem not_ofDisabled {db : Database} {id : Uuid} {d : WebhookDeliveryRecord}
    (hd : d ∈ db.webhook_deliveries.rows) (hid : d.id = id)
    (hon : ¬ EndpointOff db d.endpoint_id) : ¬ OfDisabled db id := by
  rintro ⟨d', hd', hid', hoff⟩
  rw [db.webhook_deliveries.eq_of_key_eq hd' hd (hid'.trans hid.symm)] at hoff
  exact hon hoff

/-- An endpoint that something is waiting for is not disabled. -/
theorem DisabledInv.stays_on {db' : Database} {c : Choice} (hs : DisabledInv s)
    (hrun : q.run P p c s.db = some (db', x)) (hbad : ¬ trafficAfter s q)
    {d : WebhookDeliveryRecord} (hd : d ∈ s.db.webhook_deliveries.rows)
    (hwaits : d.status = .pending ∨ ∃ p', InHand p' d.id s.log) :
    ¬ EndpointOff db' d.endpoint_id := by
  intro hoff
  rcases Stmt.endpoint_off hrun hoff with hoff | ⟨organization_id, changes, rfl, hfalse, hfound⟩
  · rcases hwaits with hpending | ⟨p', hhand⟩
    · exact hs.pending d hd hpending hoff
    · exact hs.inHand d hd p' hhand hoff
  · refine hbad ⟨hfalse, hfound, d, hd, rfl, hwaits.imp_right fun ⟨p', hhand⟩ => ?_⟩
    obtain ⟨e, he, hp, -⟩ := hhand.exists_mem
    exact ⟨p', List.mem_map.mpr ⟨e, he, hp⟩, hhand⟩

/-- What is pending after a statement belongs to an endpoint that is on. -/
theorem DisabledInv.pending_on {db' : Database} {c : Choice} (hs : DisabledInv s)
    (hrun : q.run P p c s.db = some (db', x)) (hbad : ¬ trafficAfter s q)
    {d' : WebhookDeliveryRecord} (hd' : d' ∈ db'.webhook_deliveries.rows)
    (hpending : d'.status = .pending) : ¬ EndpointOff db' d'.endpoint_id := by
  intro hoff
  rcases Stmt.endpoint_off hrun hoff with hoff | ⟨organization_id, changes, rfl, hfalse, hfound⟩
  · exact Stmt.pending_step hrun hbad hs.pending hd' hpending hoff
  · rcases Stmt.delivery_step hrun hd' with ⟨d, hd, hstep⟩ | hnew
    · have hsame : d'.endpoint_id = d.endpoint_id := hstep.endpoint_id_eq
      have hwas : d.status = .pending := by
        cases hstep <;> exact hpending
      exact hbad ⟨hfalse, hfound, d, hd, hsame.symm, .inl hwas⟩
    · obtain ⟨_, _, _, _, heq, -⟩ := hnew.fan_out
      cases heq

/-- What is in somebody's hands after a statement was there before, and pending or in hand. -/
theorem DisabledInv.waits {db' : Database} {c : Choice} (hs : DisabledInv s)
    (hrun : q.run P p c s.db = some (db', x)) {p' : ℕ} {id : Uuid}
    (hhand : InHand p' id (⟨p, r, s.db, q, x⟩ :: s.log)) : id ∈ s.db.issued ∧
      ∀ d ∈ s.db.webhook_deliveries.rows, d.id = id →
        d.status = .pending ∨ ∃ p', InHand p' d.id s.log := by
  rcases inHand_of_cons hhand with hclaims | hhand
  · obtain ⟨d, hd, rfl, hpending⟩ := pending_of_claims hrun hclaims
    refine ⟨hs.issued d hd, fun d' hd' hid => ?_⟩
    rw [s.db.webhook_deliveries.eq_of_key_eq hd' hd hid]
    exact .inl hpending
  · exact ⟨hs.handed p' id hhand, fun d _ hid => .inr ⟨p', hid ▸ hhand⟩⟩

/-- Every statement of the regime keeps the invariant, if workers send only what is in their
hands. The two parts feed each other: what is claimed was pending, so it belonged to an endpoint
that was on, and now it is in hand; what is sent was in hand. -/
theorem DisabledInv.effect (hs : DisabledInv s) (hpre : WorkerPre p s.log q)
    (h : disabledAtRest.Effect (store P) p r q s x s') : DisabledInv s' := by
  have hunsent : ∀ id, sends id ⟨p, r, s.db, q, x⟩ → ¬ OfDisabled s.db id := by
    intro id hsends
    unfold sends at hsends
    split at hsends
    · next heq =>
      cases heq
      subst hsends
      rintro ⟨d, hd, rfl, hoff⟩
      exact hs.inHand d hd p (inHand_of_sends hpre) hoff
    · exact hsends.elim
  cases h with
  | @fail x _ =>
    have hold : ∀ {p' id log}, InHand p' id (⟨p, r, s.db, q, .error x⟩ :: log) →
        InHand p' id log :=
      fun h => (inHand_of_cons h).resolve_left not_claimsDelivery_error
    refine ⟨⟨fun e he id hclaims => ?_, fun e he id hsends => ?_⟩, hs.issued, hs.pending,
      fun d hd p' h => hs.inHand d hd p' (hold h), fun p' id h => hs.handed p' id (hold h)⟩
    · rcases List.mem_cons.mp he with rfl | he
      · exact absurd hclaims not_claimsDelivery_error
      · exact hs.stopped.unclaimed e he id hclaims
    · rcases List.mem_cons.mp he with rfl | he
      · exact hunsent id hsends
      · exact hs.stopped.unsent e he id hsends
  | @run c db' x hadmits hrun =>
    refine ⟨⟨fun e he id hclaims => ?_, fun e he id hsends => ?_⟩,
      Stmt.deliveriesIssued hrun hs.issued, fun d' hd' => hs.pending_on hrun hadmits.2 hd',
      fun d' hd' p' hhand => ?_, fun p' id hhand => ?_⟩
    · rcases List.mem_cons.mp he with rfl | he
      · obtain ⟨d, hd, hid, hpending⟩ := pending_of_claims hrun hclaims
        exact not_ofDisabled hd hid (hs.pending d hd hpending)
      · exact hs.stopped.unclaimed e he id hclaims
    · rcases List.mem_cons.mp he with rfl | he
      · exact hunsent id hsends
      · exact hs.stopped.unsent e he id hsends
    · obtain ⟨hissued, hwaits⟩ := hs.waits hrun hhand
      rcases Stmt.delivery_step hrun hd' with ⟨d, hd, hstep⟩ | hnew
      · rw [hstep.endpoint_id_eq]
        exact hs.stays_on hrun hadmits.2 hd (hwaits d hd hstep.id_eq.symm)
      · exact absurd hissued hnew.new
    · obtain ⟨n, hn⟩ := Stmt.issued_mono hrun
      rw [Shared.push_db, hn]
      exact List.mem_append_right _ (hs.waits hrun hhand).1

variable {d : Deployment} {db : Database} {w : World}

/-- No delivery of a disabled endpoint is pending. -/
def NothingWaits (db : Database) : Prop :=
  ∀ d ∈ db.webhook_deliveries.rows, d.status = .pending → ¬ EndpointOff db d.endpoint_id

/-- **A disabled endpoint gets no traffic**, in every run in which endpoints are disabled at rest
and nothing of a disabled endpoint is made pending. -/
theorem trafficStopped_of_reaches (hissued : DeliveriesIssued db) (hwaits : NothingWaits db)
    (h : Reaches d disabledAtRest (World.start db) w) : TrafficStopped w.shared := by
  have hstart : DisabledInv (World.start db).shared :=
    ⟨⟨fun _ he => absurd he List.not_mem_nil, fun _ he => absurd he List.not_mem_nil⟩, hissued,
      hwaits, fun _ _ _ hhand => absurd hhand since_nil, fun _ _ hhand => absurd hhand since_nil⟩
  have hspec : ∀ p (r : Request) s, disabledAtRest.spawns r →
      (workerLogic d.platform disabledAtRest).inv s → (∀ e ∈ s.log, e.pid ≠ p) →
      (workerLogic d.platform disabledAtRest).wp p r (r.code d) (fun _ _ => True) s :=
    fun _ _ _ _ _ hfresh => wp_worker hfresh
  have hinv : DisabledInv w.shared :=
    Logic.inv_of_reaches hspec (.start trivial) hstart (fun _ hpre hs he => hs.effect hpre he)
      (fun _ hs => ⟨⟨hs.stopped.unclaimed, hs.stopped.unsent⟩, hs.issued, hs.pending, hs.inHand,
        hs.handed⟩)
      (fun hs => ⟨⟨hs.stopped.unclaimed, hs.stopped.unsent⟩, hs.issued, hs.pending, hs.inHand,
        hs.handed⟩) h
  exact hinv.stopped

end Run

/-! ### Disabled while something waits

The update does not look at deliveries, and the claim does not look at endpoints. -/

instance (db : Database) : DecidablePred (EndpointOff db) := fun id =>
  inferInstanceAs (Decidable (∃ e ∈ db.webhook_endpoints.rows, e.id = id ∧ e.enabled = false))

instance (db : Database) : DecidablePred (OfDisabled db) := fun id =>
  inferInstanceAs (Decidable (∃ d ∈ db.webhook_deliveries.rows, d.id = id ∧
    EndpointOff db d.endpoint_id))

instance (db : Database) : Decidable (NothingWaits db) :=
  inferInstanceAs (Decidable (∀ d ∈ db.webhook_deliveries.rows, d.status = .pending →
    ¬ EndpointOff db d.endpoint_id))

instance (s : State) : DecidablePred (trafficAfter s) := fun q => by
  induction q using Stmt.casesOn with
  | webhooks q => induction q using WebhookStmt.casesOn <;> (delta trafficAfter; infer_instance)
  | _ => delta trafficAfter; infer_instance

/-- The sample organization, with an endpoint and a delivery that waits to be sent to it. -/
def Database.watched : Database :=
  { Database.sample with
    webhook_endpoints := oneDelivery.webhook_endpoints
    webhook_deliveries := oneDelivery.webhook_deliveries
    issued := 3 :: Database.sample.issued }

/-- Endpoint 2 is disabled by an owner of the organization. -/
def disableEndpoint (p : ℕ) : List Step :=
  [.spawn p (.update_endpoint 1 2 ⟨none, some false, none, none⟩ 8), .step p {}, .step p {},
    .step p {}]

/-- A worker claims what is due, sends it, and is answered with 200. -/
def deliverDue (p : ℕ) : List Step :=
  [.spawn p .deliver_webhooks, .step p {}, .step p { response := some 200 }, .step p {}]

/-- **What is waiting is sent all the same.** -/
theorem not_trafficStopped : ¬ ∀ w, Reaches .sample (Regime.free fun _ => True)
    (World.start .watched) w → TrafficStopped w.shared := by
  intro hall
  have hstopped := hall _ (Deployment.sample.reaches_play _ (disableEndpoint 0 ++ deliverDue 1)
    .watched)
  have hclaimed : ∃ e ∈ (Deployment.sample.play (Regime.free fun _ => True)
      (disableEndpoint 0 ++ deliverDue 1) .watched).shared.log,
      claimsDelivery 3 e ∧ OfDisabled e.before 3 := by
    decide +kernel
  obtain ⟨e, he, hclaims, hoff⟩ := hclaimed
  exact hstopped.unclaimed e he 3 hclaims hoff

/-- The same update once the delivery has been made, and a worker after it. -/
theorem trafficStopped_atRest :
    let s := (Deployment.sample.play disabledAtRest
      (deliverDue 0 ++ disableEndpoint 1 ++ [.spawn 2 .deliver_webhooks, .step 2 {}])
      .watched).shared
    (EndpointOff s.db 2 ∧ ∃ e ∈ s.log, sends 3 e) ∧ TrafficStopped s :=
  ⟨by decide +kernel, trafficStopped_of_reaches (by decide) (by decide)
    (Deployment.sample.reaches_play disabledAtRest _ .watched)⟩

end SubmitSnap
