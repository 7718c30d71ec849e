import SubmitSnap.Webhook.Deliveries

/-!
# A delivered webhook stays delivered

A delivery is leased for two minutes and a worker sends up to twenty of them one after another, so
a lease can run out while its worker is still busy, and two workers can hold the same delivery.
Their result writes name the row by its identifier and look at nothing else. `mark_delivered` after
a failure is harmless; a failure after `mark_delivered` puts a delivered webhook back in the queue.

`StaysDelivered` is the property, read off the trace. It holds in every run in which no failure is
written over a success, whatever else happens: any of the requests may arrive, and faults and
crashes are allowed.

## The argument

Under the regime the status of a delivered row changes by a redelivery only: a claim takes pending
rows, and a failure over a success is excluded. What remains is that the row itself might be
replaced by another of the same identifier. A settled delivery existed when it was marked, so its
identifier has been issued (`DeliveredInv.settled`), and a fan-out only ever inserts under new
ones.

## Main results

* `staysDelivered_of_reaches` — the property, in the runs of `successStands`.
* `not_staysDelivered` — two workers and an expired lease.
-/

namespace SubmitSnap

open Interleave

/-- The event marks the delivery `id`, which exists, delivered. -/
def marksDelivered (id : Uuid) : Event → Prop
  | ⟨_, _, before, .webhooks (.mark_delivered id' _), .ok _⟩ =>
    id' = id ∧ before.webhook_deliveries.hasKey id = true
  | _ => False

/-- The event is a request to deliver `id` once more. -/
def redelivers (id : Uuid) : Event → Prop
  | ⟨_, _, _, .webhooks (.requeue_delivery _ id'), .ok true⟩ => id' = id
  | _ => False

/-- The event hands `id` to a worker. -/
def claimsDelivery (id : Uuid) : Event → Prop
  | ⟨_, _, _, .webhooks (.claim_due_deliveries _ _), .ok ds⟩ => ∃ d ∈ ds, d.id = id
  | _ => False

/-- The delivery has been marked delivered, and no redelivery has been asked for since. -/
abbrev Settled (id : Uuid) : List Event → Prop := Since (marksDelivered id) (redelivers id)

/-- Every row with this identifier is delivered. -/
def IsDelivered (id : Uuid) (db : Database) : Prop :=
  ∀ d ∈ db.webhook_deliveries.rows, d.id = id → d.status = .delivered

/-- A settled delivery has the status `delivered`, and no worker has claimed it while settled. -/
structure StaysDelivered (s : State) : Prop where
  status : ∀ id, Settled id s.log → IsDelivered id s.db
  unclaimed : Throughout (fun e log => ∀ id, Settled id log → ¬ claimsDelivery id e) s.log

/-- A failure is written over a success. -/
def failsOver (db : Database) : Stmt → Prop
  | .webhooks (.record_attempt_failure id _ _ _ _) =>
    ∃ d ∈ db.webhook_deliveries.rows, d.id = id ∧ d.status = .delivered
  | _ => False

/-- The runs in which the success of a delivery stands; any request may arrive, statements may fail
and processes may stop. -/
abbrev successStands : Regime :=
  (Regime.free fun _ => True).avoiding fun _ _ q s => failsOver s.db q

/-! ### One statement -/

section Statement

variable {P : Platform} {p : ℕ} {c : Choice} {db db' : Database} {id : Uuid}

/-- The identifiers of the deliveries have all been generated. -/
def DeliveriesIssued (db : Database) : Prop :=
  ∀ d ∈ db.webhook_deliveries.rows, d.id ∈ db.issued

theorem Stmt.deliveriesIssued {q : Stmt} {x : Except Failure q.Reply}
    (h : q.run P p c db = some (db', x)) (hdb : DeliveriesIssued db) : DeliveriesIssued db' := by
  obtain ⟨n, hn⟩ := Stmt.issued_mono h
  have hmono : ∀ {m}, m ∈ db.issued → m ∈ db'.issued := fun hm => by
    rw [hn]
    exact List.mem_append_right _ hm
  intro d' hd'
  by_cases hq : ∃ q', q = .webhooks q'
  · obtain ⟨q', rfl⟩ := hq
    rcases WebhookStmt.delivery_origin h hd' with ⟨d, hd, hsame, -⟩ | ⟨-, -, hissued⟩
    · rw [hsame]
      exact hmono (hdb d hd)
    · exact hissued
  · obtain ⟨d, hd, heq⟩ := Stmt.deliveries_from (fun q' hq' => hq ⟨q', hq'⟩) h d' hd'
    have hid : d'.id = d.id := by rcases heq with rfl | rfl <;> rfl
    rw [hid]
    exact hmono (hdb d hd)

theorem isDelivered_of_from (h : IsDelivered id db) (hfrom : DeliveriesFrom db db') :
    IsDelivered id db' := by
  intro d' hd' hid
  obtain ⟨d, hd, rfl | rfl⟩ := hfrom d' hd'
  · exact h _ hd hid
  · exact h d hd hid

/-- A delivered row stays so, unless the statement is a redelivery of it or writes a failure over
the success. -/
theorem Stmt.isDelivered {q : Stmt} {x : Except Failure q.Reply}
    (h : q.run P p c db = some (db', x)) (hid : id ∈ db.issued) (hdb : IsDelivered id db)
    (hover : ¬ failsOver db q) {r : Request} (hre : ¬ redelivers id ⟨p, r, db, q, x⟩) :
    IsDelivered id db' := by
  by_cases hq : ∃ q', q = .webhooks q'
  · obtain ⟨q', rfl⟩ := hq
    intro d' hd' hd'id
    rcases WebhookStmt.delivery_origin h hd' with ⟨d, hd, hsame, hstatus⟩ | ⟨-, hnew, -⟩
    · have hdid : d.id = id := hsame.symm.trans hd'id
      rcases hstatus with hstatus | hwrites
      · rw [hstatus]
        exact hdb d hd hdid
      -- The statement writes the status of this very row.
      rw [hdid] at hwrites
      cases q' with
      | mark_delivered id' response_status =>
        cases h
        obtain ⟨d₀, hd₀, ⟨-, rfl⟩ | ⟨hsel, rfl⟩⟩ := Table.of_mem_updateWhere hd'
        · rfl
        · exact hdb d' hd₀ hd'id
      | record_attempt_failure id' _ _ _ _ =>
        exact absurd ⟨d, hd, hdid.trans (hwrites : id' = id).symm, hdb d hd hdid⟩ hover
      | requeue_delivery organization_id id' =>
        cases h
        obtain ⟨d₀, hd₀, ⟨hsel, rfl⟩ | ⟨-, rfl⟩⟩ := Table.of_mem_updateWhere hd'
        · refine absurd ?_ hre
          have hany : db.webhook_deliveries.rows.any (fun d =>
              d.organization_id == organization_id && d.id == id') = true :=
            List.any_eq_true.mpr ⟨d₀, hd₀, hsel⟩
          rw [hany]
          exact hwrites
        · exact hdb d' hd₀ hd'id
      | create_endpoint _ _ _ _ _ | find_endpoint _ _ | set_endpoint_secret _ _ _
      | update_endpoint _ _ _ | delete_endpoint _ _ | form_belongs_to _ _ | fan_out_scan _ _
      | fan_out_insert _ _ _ _
      | claim_due_deliveries _ _ | find_delivery _ _ => exact hwrites.elim
    · rw [hd'id] at hnew
      exact absurd hid hnew
  · exact isDelivered_of_from hdb (Stmt.deliveries_from (fun q' hq' => hq ⟨q', hq'⟩) h)

/-- `mark_delivered` marks it delivered. -/
theorem isDelivered_of_marks {q : Stmt} {x : Except Failure q.Reply} {r : Request}
    (h : q.run P p c db = some (db', x)) (hm : marksDelivered id ⟨p, r, db, q, x⟩) :
    IsDelivered id db' ∧ ∃ d ∈ db.webhook_deliveries.rows, d.id = id := by
  unfold marksDelivered at hm
  split at hm
  · next heq =>
    cases heq
    cases h
    obtain ⟨rfl, hkey⟩ := hm
    refine ⟨fun d' hd' hid => ?_, Table.hasKey_iff.mp hkey⟩
    obtain ⟨d₀, hd₀, ⟨-, rfl⟩ | ⟨hsel, rfl⟩⟩ := Table.of_mem_updateWhere hd'
    · rfl
    · simp [hid] at hsel
  · exact hm.elim

/-- Only a pending delivery is ever claimed. -/
theorem not_claims_of_isDelivered {q : Stmt} {x : Except Failure q.Reply} {r : Request}
    (h : q.run P p c db = some (db', x)) (hdb : IsDelivered id db) :
    ¬ claimsDelivery id ⟨p, r, db, q, x⟩ := by
  intro hc
  unfold claimsDelivery at hc
  split at hc
  · next heq =>
    cases heq
    cases h
    obtain ⟨claimed, hmem, hid⟩ := hc
    obtain ⟨d, hd, hclaimed⟩ := List.mem_filterMap.mp hmem
    have hdue := List.mem_filter.mp
      ((List.mem_insertionSort _).mp (List.mem_of_mem_take hd))
    obtain ⟨e, -, rfl⟩ := Option.map_eq_some_iff.mp hclaimed
    have hpending : d.status = .pending := by
      have := hdue.2
      simp only [Bool.and_eq_true, beq_iff_eq] at this
      exact this.1
    rw [hdb d hdue.1 hid] at hpending
    cases hpending
  · exact hc.elim

end Statement

/-! ### Every run -/

/-- The property, with what it takes to keep it: a settled delivery has an identifier that no new
delivery will get. -/
structure DeliveredInv (s : State) : Prop where
  stays : StaysDelivered s
  issued : DeliveriesIssued s.db
  settled : ∀ id, Settled id s.log → id ∈ s.db.issued

variable {P : Platform} {p : ℕ} {r : Request} {q : Stmt} {x : Except Failure q.Reply}
  {s s' : State}

/-- A statement that fails is no event of interest. -/
theorem settled_error {id : Uuid} {db : Database} {e : Failure} {log : List Event} :
    Settled id (⟨p, r, db, q, .error e⟩ :: log) ↔ Settled id log := by
  have hm : ¬ marksDelivered id ⟨p, r, db, q, .error e⟩ := by
    unfold marksDelivered
    split
    · next heq => cases heq
    · exact not_false
  have hr : ¬ redelivers id ⟨p, r, db, q, .error e⟩ := by
    unfold redelivers
    split
    · next heq => cases heq
    · exact not_false
  simp [hm, hr]

theorem not_claimsDelivery_error {id : Uuid} {db : Database} {e : Failure} :
    ¬ claimsDelivery id ⟨p, r, db, q, .error e⟩ := by
  unfold claimsDelivery
  split
  · next heq => cases heq
  · exact not_false

/-- Every statement of the regime keeps the invariant. If the statement settles the delivery, the
row is delivered because it was there to be marked. If the delivery was settled before, the row
stays delivered, and a claim does not find it. -/
theorem DeliveredInv.effect (hs : DeliveredInv s)
    (h : successStands.Effect (store P) p r q s x s') : DeliveredInv s' := by
  cases h with
  | fail _ =>
    refine ⟨⟨fun id hid => hs.stays.status id (settled_error.mp hid), ?_⟩, hs.issued,
      fun id hid => hs.settled id (settled_error.mp hid)⟩
    exact ⟨fun id _ => not_claimsDelivery_error, hs.stays.unclaimed⟩
  | run hadmits hrun =>
    refine ⟨⟨fun id hid => ?_, fun id hid => ?_, hs.stays.unclaimed⟩,
      Stmt.deliveriesIssued hrun hs.issued, fun id hid => ?_⟩
    · rcases hid with hm | ⟨hre, hid⟩
      · exact (isDelivered_of_marks hrun hm).1
      · exact Stmt.isDelivered hrun (hs.settled id hid) (hs.stays.status id hid) hadmits.2 hre
    · exact not_claims_of_isDelivered hrun (hs.stays.status id hid)
    · obtain ⟨n, hn⟩ := Stmt.issued_mono hrun
      rw [Shared.push_db, hn]
      refine List.mem_append_right _ ?_
      rcases hid with hm | ⟨-, hid⟩
      · obtain ⟨-, d, hd, rfl⟩ := isDelivered_of_marks hrun hm
        exact hs.issued d hd
      · exact hs.settled id hid

variable {d : Deployment} {db : Database} {w : World}

/-- **A delivered webhook stays delivered**, and is not claimed again before a redelivery is asked
for, in every run in which no failure is written over a success. -/
theorem staysDelivered_of_reaches (hdb : DeliveriesIssued db)
    (h : Reaches d successStands (World.start db) w) : StaysDelivered w.shared := by
  have hstart : DeliveredInv (World.start db).shared :=
    ⟨⟨fun _ h => absurd h since_nil, trivial⟩, hdb, fun _ h => absurd h since_nil⟩
  have hinv : DeliveredInv w.shared :=
    Regime.inv_of_reaches (I := DeliveredInv) (fun hs he => hs.effect he)
      (fun _ hs => ⟨⟨hs.stays.status, hs.stays.unclaimed⟩, hs.issued, hs.settled⟩)
      (fun hs => ⟨⟨hs.stays.status, hs.stays.unclaimed⟩, hs.issued, hs.settled⟩) hstart h
  exact hinv.stays

/-! ### An expired lease

Two workers hold the delivery. The one that was slow writes its failure last. -/

instance (id : Uuid) : DecidablePred (marksDelivered id) := fun e => by
  delta marksDelivered
  split <;> infer_instance

instance (id : Uuid) : DecidablePred (redelivers id) := fun e => by
  delta redelivers
  split <;> infer_instance

instance : Decidable (DeliveriesIssued db) :=
  inferInstanceAs (Decidable (∀ d ∈ db.webhook_deliveries.rows, d.id ∈ db.issued))

instance : DecidablePred (failsOver db) := fun q => by
  delta failsOver
  split <;> infer_instance

/-- An organization with one endpoint and one delivery to it. -/
def oneDelivery : Database :=
  { Database.empty with
    webhook_endpoints := Table.empty.insertNew
      { id := 2, organization_id := 1, form_id := none, url := "https://receiver.example"
        secret := "0123456789abcdef", description := none, enabled := true, created_at := 0 }
    webhook_deliveries := Table.empty.insertNew
      { id := 3, organization_id := 1, endpoint_id := 2, submission_id := none, payload := .null
        status := .pending, attempts := 0, response_status := none, last_error := none
        next_attempt_at := 0, created_at := 0, delivered_at := none }
    issued := [3, 2, 1] }

/-- One worker claims the delivery and is slow; its lease runs out, and another worker claims the
delivery and sends it; then the first one gets no answer. -/
def expiredLease : List Step :=
  [.spawn 0 .deliver_webhooks, .step 0 {}, .pass (seconds CLAIM_LEASE_SECONDS),
    .spawn 1 .deliver_webhooks, .step 1 {}, .step 1 { response := some 200 }, .step 1 {},
    .step 0 { text := "timed out" }, .step 0 {}]

/-- **The lease is no protection.** A delivery its receiver has accepted is pending again. -/
theorem not_staysDelivered : ¬ ∀ w, Reaches .sample (Regime.free fun _ => True)
    (World.start oneDelivery) w → StaysDelivered w.shared := by
  intro hall
  have hstays := hall _ (Deployment.sample.reaches_play _ expiredLease oneDelivery)
  have hsettled : Settled 3 (Deployment.sample.play (Regime.free fun _ => True) expiredLease
      oneDelivery).shared.log := by decide +kernel
  have hpending : ∃ d ∈ (Deployment.sample.play (Regime.free fun _ => True) expiredLease
      oneDelivery).shared.db.webhook_deliveries.rows, d.id = 3 ∧ d.status = .pending := by
    decide +kernel
  obtain ⟨d, hd, hid, hstatus⟩ := hpending
  rw [hstays.status 3 hsettled d hd hid] at hstatus
  cases hstatus

/-- The same two workers, when the slow one is heard of first. -/
def slowFirst : List Step :=
  [.spawn 0 .deliver_webhooks, .step 0 {}, .pass (seconds CLAIM_LEASE_SECONDS),
    .spawn 1 .deliver_webhooks, .step 1 {}, .step 0 { text := "timed out" }, .step 0 {},
    .step 1 { response := some 200 }, .step 1 {}]

/-- Its failure is written while the delivery is pending, and the success stands. -/
theorem staysDelivered_slowFirst :
    let s := (Deployment.sample.play successStands slowFirst oneDelivery).shared
    Settled 3 s.log ∧ StaysDelivered s :=
  ⟨by decide +kernel, staysDelivered_of_reaches (by decide)
    (Deployment.sample.reaches_play successStands slowFirst oneDelivery)⟩

end SubmitSnap
