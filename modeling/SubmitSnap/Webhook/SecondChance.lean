import SubmitSnap.Webhook.Worker

/-!
# What a redelivery is worth

A redelivery makes the row pending and due, and leaves its counter alone. The claim that follows
raises the counter, and the failure that may follow the claim holds it against the limit. So whether
a redelivered webhook gets another chance after its next failure depends on the number of attempts
it had used before, and on nothing else that happens in between.

## The argument

The counter of a delivery changes when it is claimed and at no other time. From a redelivery to
the next claim it is therefore what the redelivery found, the claim hands out the number after it,
and the failure is written under the number that was handed out (`WorkerPre`). It is the
comparison of that number with the limit which decides. The equivalence holds in every run and
needs no regime: the three events are consecutive as far as this delivery is concerned, by the
definition of `Redelivered`.

## Main results

* `secondChance_of_reaches` — after the failed attempt that follows a redelivery, the delivery waits
  for its next attempt if and only if the redelivery found two attempts left.
* `not_givesSecondChance` — a delivery that had been given up on.
-/

namespace SubmitSnap

open Interleave

/-- The event redelivers `id`, which has used `a` attempts. -/
def redeliversAt (id : Uuid) (a : ℕ) : Event → Prop
  | ⟨_, _, before, .webhooks (.requeue_delivery organization_id id'), .ok true⟩ =>
    id' = id ∧ ∃ d ∈ before.webhook_deliveries.rows,
      d.id = id ∧ d.organization_id = organization_id ∧ d.attempts = a
  | _ => False

/-- The event claims the delivery, writes a result for it, or redelivers it. -/
def touchesDelivery (id : Uuid) : Event → Prop
  | ⟨_, _, _, .webhooks (.claim_due_deliveries _ _), .ok ds⟩ => ∃ d ∈ ds, d.id = id
  | ⟨_, _, _, .webhooks (.mark_delivered id' _), .ok _⟩
  | ⟨_, _, _, .webhooks (.record_attempt_failure id' _ _ _ _), .ok _⟩
  | ⟨_, _, _, .webhooks (.requeue_delivery _ id'), .ok true⟩ => id' = id
  | _ => False

/-- The delivery was redelivered when it had used `a` attempts, and nothing has become of it
since. -/
abbrev Redelivered (id : Uuid) (a : ℕ) : List Event → Prop :=
  Since (redeliversAt id a) (touchesDelivery id)

/-- The event is a worker writing down that its attempt has failed. -/
def failsAttempt (id : Uuid) : Event → Prop
  | ⟨_, _, _, .webhooks (.record_attempt_failure id' _ _ _ _), .ok _⟩ => id' = id
  | _ => False

/-- The attempt that fails is the one a worker was handed next after the redelivery. -/
def NextAttemptFailed (id : Uuid) (a : ℕ) (failure : Event) (log : List Event) : Prop :=
  failsAttempt id failure ∧ Once (fun claim earlier =>
    claim.pid = failure.pid ∧ claimsDelivery id claim ∧ Redelivered id a earlier) log

/-- The delivery is pending, and due when the delay after `attempts` attempts has passed. -/
def WaitsForNext (db : Database) (id : Uuid) (attempts : ℕ) (now : Timestamp) : Prop :=
  ∀ d ∈ db.webhook_deliveries.rows, d.id = id → d.status = .pending ∧
    d.next_attempt_at = now + seconds (delivery_backoff_seconds attempts)

instance (db : Database) (id : Uuid) (attempts : ℕ) (now : Timestamp) :
    Decidable (WaitsForNext db id attempts now) :=
  inferInstanceAs (Decidable (∀ d ∈ db.webhook_deliveries.rows, d.id = id → d.status = .pending ∧
    d.next_attempt_at = now + seconds (delivery_backoff_seconds attempts)))

/-- Redelivery gives a real second chance: the attempt that follows it may fail. -/
def GivesSecondChance (s : State) : Prop :=
  ∀ id a failure log, s.log = failure :: log → NextAttemptFailed id a failure log →
    WaitsForNext s.db id (a + 1) failure.before.clock

/-- The delivery is in the database. -/
def HasDelivery (db : Database) (id : Uuid) : Prop := ∃ d ∈ db.webhook_deliveries.rows, d.id = id

/-- It does so exactly where two attempts were left. -/
def SecondChance (s : State) : Prop :=
  ∀ id a failure log, s.log = failure :: log → NextAttemptFailed id a failure log →
    HasDelivery s.db id → (WaitsForNext s.db id (a + 1) failure.before.clock ↔ a + 1 < MAX_ATTEMPTS)

section Run

variable {P : Platform} {p : ℕ} {r : Request} {q : Stmt} {x : Except Failure q.Reply} {c : Choice}
  {id : Uuid} {a : ℕ} {s s' : State} {db' : Database}

/-- What is known about redelivered deliveries, and what has been handed out of them. -/
structure ChanceInv (s : State) : Prop where
  issued : DeliveriesIssued s.db
  owned : DeliveriesOwned s.db
  known : ∀ id a, Redelivered id a s.log → id ∈ s.db.issued
  attempts : ∀ id a, Redelivered id a s.log → ∀ d ∈ s.db.webhook_deliveries.rows, d.id = id →
    d.attempts = a
  handed : Throughout (fun e log => ∀ p id n a, Redelivered id a log → hands p id n e → n = a + 1)
    s.log
  chance : SecondChance s

/-- What a redelivery finds. -/
theorem row_of_redelivers (h : redeliversAt id a ⟨p, r, s.db, q, x⟩) :
    (∃ organization_id, q = .webhooks (.requeue_delivery organization_id id)) ∧
      ∃ d ∈ s.db.webhook_deliveries.rows, d.id = id ∧ d.attempts = a := by
  unfold redeliversAt at h
  split at h
  · next heq =>
    cases heq
    obtain ⟨rfl, d, hd, hid, -, hattempts⟩ := h
    exact ⟨⟨_, rfl⟩, d, hd, hid, hattempts⟩
  · exact h.elim

theorem touchesDelivery_of_hands {n : ℕ} {e : Event} (h : hands p id n e) :
    touchesDelivery id e := by
  unfold hands at h
  split at h
  · obtain ⟨-, d, hd, hid, -⟩ := h
    exact ⟨d, hd, hid⟩
  · exact h.elim

/-- The counter of a redelivered delivery stands until it is claimed. -/
theorem ChanceInv.attempts_run (hs : ChanceInv s) (hrun : q.run P p c s.db = some (db', x))
    (h : Redelivered id a (⟨p, r, s.db, q, x⟩ :: s.log)) : id ∈ s.db.issued ∧
      ∀ d' ∈ db'.webhook_deliveries.rows, d'.id = id → d'.attempts = a := by
  rcases h with hre | ⟨htouch, hsince⟩
  · obtain ⟨⟨organization_id, rfl⟩, d₀, hd₀, rfl, hattempts⟩ := row_of_redelivers hre
    refine ⟨hs.issued d₀ hd₀, fun d' hd' hid => ?_⟩
    rcases Stmt.delivery_step hrun hd' with ⟨d, hd, hstep⟩ | hnew
    · obtain rfl := s.db.webhook_deliveries.eq_of_key_eq hd hd₀ (hstep.id_eq.symm.trans hid)
      rw [hstep.attempts_eq fun _ _ => nofun]
      exact hattempts
    · exact absurd (hid ▸ hs.issued d₀ hd₀) hnew.new
  · refine ⟨hs.known id a hsince, fun d' hd' hid => ?_⟩
    rcases Stmt.delivery_step hrun hd' with ⟨d, hd, hstep⟩ | hnew
    · have hsame : d.id = id := hstep.id_eq.symm.trans hid
      have hattempts : d.attempts = a := hs.attempts id a hsince d hd hsame
      cases hstep with
      | claimed htaken =>
        have hhands := hands_of_taken (p := p) (c := c) hrun htaken (hs.owned d hd) (r := r)
        exact absurd (touchesDelivery_of_hands (hsame ▸ hhands)) htouch
      | kept | forgotten | delivered | failed | requeued => exact hattempts
    · exact absurd (hid ▸ hs.known id a hsince) hnew.new

/-- A worker is handed the attempt after those that had been used. -/
theorem ChanceInv.handed_run (hs : ChanceInv s) (hrun : q.run P p c s.db = some (db', x)) {p' n : ℕ}
    (hsince : Redelivered id a s.log) (hhands : hands p' id n ⟨p, r, s.db, q, x⟩) :
    n = a + 1 := by
  unfold hands at hhands
  split at hhands
  · next heq =>
    cases heq
    obtain ⟨-, claimed, hmem, rfl, rfl⟩ := hhands
    obtain ⟨d, htaken, hid, hnumber, -⟩ := row_of_claimed (p := p) (c := c) hrun hmem
    have hrow := (mem_dueDeliveries.mp (List.mem_of_mem_take htaken)).1
    rw [hnumber, hs.attempts _ a hsince d hrow hid]
  · exact hhands.elim

/-- A failure that is written down is held against the limit. -/
theorem ChanceInv.chance_run (hs : ChanceInv s) (hpre : WorkerPre p s.log q)
    (hrun : q.run P p c s.db = some (db', x))
    (h : NextAttemptFailed id a ⟨p, r, s.db, q, x⟩ s.log) (hthere : HasDelivery db' id) :
    WaitsForNext db' id (a + 1) s.db.clock ↔ a + 1 < MAX_ATTEMPTS := by
  obtain ⟨hfails, honce⟩ := h
  obtain ⟨claim, hclaim, earlier, hhanded, hp, hclaims, hsince⟩ :=
    (hs.handed.of_once honce).exists_mem
  obtain ⟨n, hhands⟩ := claimsDelivery_iff.mp hclaims
  have hn : n = a + 1 := hhanded _ id n a hsince hhands
  rw [hp] at hhands
  unfold failsAttempt at hfails
  split at hfails
  · next heq =>
    cases heq
    obtain ⟨-, hnumber, rfl⟩ := hpre
    obtain rfl := hnumber claim hclaim n (hfails ▸ hhands)
    subst hn
    have hwritten : ∀ d' ∈ db'.webhook_deliveries.rows, d'.id = id →
        d'.status = (if MAX_ATTEMPTS ≤ a + 1 then .failed else .pending) ∧
        d'.next_attempt_at = s.db.clock + seconds (delivery_backoff_seconds (a + 1)) := by
      intro d' hd' hid
      rcases Stmt.delivery_step hrun hd' with ⟨d, hd, hstep⟩ | hnew
      · exact hstep.of_failure (hfails.trans (hid.symm.trans hstep.id_eq))
      · obtain ⟨_, _, _, _, heq, -⟩ := hnew.fan_out
        cases heq
    constructor
    · intro hwaits
      obtain ⟨d', hd', hid⟩ := hthere
      by_contra hmax
      have hstatus := (hwritten d' hd' hid).1
      rw [(hwaits d' hd' hid).1, if_pos (Nat.not_lt.mp hmax)] at hstatus
      cases hstatus
    · intro hlt d' hd' hid
      obtain ⟨hstatus, hnext⟩ := hwritten d' hd' hid
      rw [if_neg (Nat.not_le.mpr hlt)] at hstatus
      exact ⟨hstatus, hnext⟩
  · exact hfails.elim

theorem not_redeliversAt_error {e : Failure} {db : Database} :
    ¬ redeliversAt id a ⟨p, r, db, q, .error e⟩ := by
  unfold redeliversAt
  split
  · next heq => cases heq
  · exact not_false

theorem not_failsAttempt_error {e : Failure} {db : Database} :
    ¬ failsAttempt id ⟨p, r, db, q, .error e⟩ := by
  unfold failsAttempt
  split
  · next heq => cases heq
  · exact not_false

/-- Every statement keeps the invariant, if the workers keep to their preconditions. `attempts` is
what carries it: from a redelivery to the next claim the counter stands still, because a claim is
among the events that `Redelivered` excludes. -/
theorem ChanceInv.effect {G : Regime} (hs : ChanceInv s) (hpre : WorkerPre p s.log q)
    (h : G.Effect (store P) p r q s x s') : ChanceInv s' := by
  cases h with
  | @fail x _ =>
    have hold : ∀ {id a}, Redelivered id a (⟨p, r, s.db, q, .error x⟩ :: s.log) →
        Redelivered id a s.log :=
      fun h => (h.resolve_left not_redeliversAt_error).2
    refine ⟨hs.issued, hs.owned, fun id a h => hs.known id a (hold h),
      fun id a h => hs.attempts id a (hold h), ⟨fun p' id n a _ hhands => ?_, hs.handed⟩,
      fun id a failure log hlog h => ?_⟩
    · exact absurd (claimsDelivery_of_hands hhands) not_claimsDelivery_error
    · obtain ⟨rfl, -⟩ := List.cons.inj hlog
      exact absurd h.1 not_failsAttempt_error
  | @run c db' x hadmits hrun =>
    refine ⟨Stmt.deliveriesIssued hrun hs.issued, Stmt.deliveriesOwned hrun hs.owned,
      fun id a h => ?_, fun id a h => (hs.attempts_run hrun h).2,
      ⟨fun p' id n a hsince hhands => hs.handed_run hrun hsince hhands, hs.handed⟩,
      fun id a failure log hlog h hthere => ?_⟩
    · obtain ⟨n, hn⟩ := Stmt.issued_mono hrun
      rw [Shared.push_db, hn]
      exact List.mem_append_right _ (hs.attempts_run hrun h).1
    · obtain ⟨rfl, rfl⟩ := List.cons.inj hlog
      exact hs.chance_run hpre hrun h hthere

variable {d : Deployment} {db : Database} {w : World}

/-- **Redelivery gives a second chance exactly where two attempts were left**, in every run. -/
theorem secondChance_of_reaches (hissued : DeliveriesIssued db) (howned : DeliveriesOwned db)
    (h : Reaches d (Regime.free fun _ => True) (World.start db) w) : SecondChance w.shared := by
  have hstart : ChanceInv (World.start db).shared :=
    ⟨hissued, howned, fun _ _ h => absurd h since_nil, fun _ _ h => absurd h since_nil, trivial,
      fun _ _ _ _ hlog => by cases hlog⟩
  have hspec : ∀ p (r : Request) s, (Regime.free fun _ => True : Regime).spawns r →
      (workerLogic d.platform (Regime.free fun _ => True)).inv s → (∀ e ∈ s.log, e.pid ≠ p) →
      (workerLogic d.platform (Regime.free fun _ => True)).wp p r (r.code d)
        (fun _ _ => True) s :=
    fun _ _ _ _ _ hfresh => wp_worker hfresh
  have hinv : ChanceInv w.shared :=
    Logic.inv_of_reaches hspec (.start trivial) hstart (fun _ hpre hs he => hs.effect hpre he)
      (fun _ hs => ⟨hs.issued, hs.owned, hs.known, hs.attempts, hs.handed, hs.chance⟩)
      (fun hs => ⟨hs.issued, hs.owned, hs.known, hs.attempts, hs.handed, hs.chance⟩) h
  exact hinv.chance

end Run

/-! ### A delivery that had been given up on

All attempts were used. The redelivery makes the row pending, the claim counts a seventh attempt,
and its failure is past the limit. -/

/-- The sample organization, with a delivery in the given state. -/
def Database.attempted (status : DeliveryStatus) (attempts : ℕ) : Database :=
  { Database.sample with
    webhook_endpoints := oneDelivery.webhook_endpoints
    webhook_deliveries := Table.empty.insertNew
      { id := 3, organization_id := 1, endpoint_id := 2, submission_id := none, payload := .null
        status := status, attempts := attempts, response_status := none, last_error := none
        next_attempt_at := 0, created_at := 0, delivered_at := none }
    issued := 3 :: Database.sample.issued }

/-- An owner redelivers the webhook; the worker that claims it is answered with an error. -/
def redeliverAndFail : List Step :=
  [.spawn 0 (.redeliver 1 3 8), .step 0 {}, .step 0 {}, .step 0 {}, .spawn 1 .deliver_webhooks,
    .step 1 {}, .step 1 { response := some 500 }, .step 1 {}]

instance (id : Uuid) (a : ℕ) : DecidablePred (redeliversAt id a) := fun e => by
  delta redeliversAt
  split <;> infer_instance

instance (id : Uuid) : DecidablePred (touchesDelivery id) := fun ⟨_, _, _, q, reply⟩ => by
  induction q using Stmt.casesOn with
  | webhooks q =>
    induction q using WebhookStmt.casesOn with
    | requeue_delivery =>
      induction reply using Except.casesOn with
      | ok requeued =>
        induction requeued using Bool.casesOn <;> (delta touchesDelivery; infer_instance)
      | error => delta touchesDelivery; infer_instance
    | _ => induction reply using Except.casesOn <;> (delta touchesDelivery; infer_instance)
  | _ => delta touchesDelivery; infer_instance

instance (id : Uuid) : DecidablePred (failsAttempt id) := fun ⟨_, _, _, q, reply⟩ => by
  induction q using Stmt.casesOn with
  | webhooks q =>
    induction q using WebhookStmt.casesOn <;> induction reply using Except.casesOn <;>
      (delta failsAttempt; infer_instance)
  | _ => delta failsAttempt; infer_instance

instance (id : Uuid) (a : ℕ) (failure : Event) (log : List Event) :
    Decidable (NextAttemptFailed id a failure log) :=
  inferInstanceAs (Decidable (failsAttempt id failure ∧ Once (fun claim earlier =>
    claim.pid = failure.pid ∧ claimsDelivery id claim ∧ Redelivered id a earlier) log))

/-- The attempt that followed a redelivery is what was last heard of. -/
def HeardOfNext (id : Uuid) (a : ℕ) : List Event → Prop
  | [] => False
  | failure :: log => NextAttemptFailed id a failure log

instance (id : Uuid) (a : ℕ) : DecidablePred (HeardOfNext id a) := fun log => by
  induction log using List.casesOn <;> (delta HeardOfNext; infer_instance)

/-- **Given up on once more.** The delivery had failed for good; after one more failure it has
again. -/
theorem not_givesSecondChance : ¬ ∀ w, Reaches .sample (Regime.free fun _ => True)
    (World.start (.attempted .failed 6)) w → GivesSecondChance w.shared := by
  intro hall
  have hchance := hall _ (Deployment.sample.reaches_play _ redeliverAndFail _)
  have hheard : HeardOfNext 3 6 (Deployment.sample.play (Regime.free fun _ => True)
      redeliverAndFail (.attempted .failed 6)).shared.log := by
    decide +kernel
  have hfailed : ∃ d ∈ (Deployment.sample.play (Regime.free fun _ => True) redeliverAndFail
      (.attempted .failed 6)).shared.db.webhook_deliveries.rows, d.id = 3 ∧ d.status = .failed := by
    decide +kernel
  revert hchance hheard hfailed
  generalize (Deployment.sample.play (Regime.free fun _ => True) redeliverAndFail
    (.attempted .failed 6)).shared = s
  rintro hchance hheard ⟨d, hd, hid, hstatus⟩
  cases hlog : s.log with
  | nil => simp [HeardOfNext, hlog] at hheard
  | cons failure log =>
    rw [hlog] at hheard
    rw [(hchance 3 6 failure log hlog hheard d hd hid).1] at hstatus
    cases hstatus

/-- With two attempts used, the delivery waits for its next one. -/
theorem secondChance_twoUsed :
    let s := (Deployment.sample.play (Regime.free fun _ => True) redeliverAndFail
      (.attempted .pending 2)).shared
    (HeardOfNext 3 2 s.log ∧ WaitsForNext s.db 3 3 0) ∧ SecondChance s :=
  ⟨by decide +kernel, secondChance_of_reaches (by decide) (by decide)
    (Deployment.sample.reaches_play _ redeliverAndFail _)⟩

end SubmitSnap
