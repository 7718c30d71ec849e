import SubmitSnap.Webhook.Worker

/-!
# How often a delivery is attempted

The attempt counter goes up with the claim, and is held against the limit only when a failure is
written down. A claim whose worker is never heard of again leaves the counter where it is and the
delivery pending, so the sixth such claim can be followed by a seventh.

`AttemptsBounded` is the property, for one delivery that nobody asks to redeliver. It holds in every
run in which the last attempt is heard of: the delivery is not claimed again while a worker holds
its last attempt and has not written down how it went, and no failure of an earlier attempt is
written once the last one has been settled.

## The argument

Requests are counted through claims: a worker sends a delivery once at most and only after it has
claimed it (`SentOnce`), so there are at most as many senders as claimers, and each claim is
counted in the row. What has to be bounded is therefore the counter. A claim raises it, and the
claim looks at nothing but the status; so it must not find a pending delivery whose attempts are
used up. Such a delivery is in somebody's hands (`AttemptsInv.last`): it became pending before the
last claim, and it stays pending until the worker that has its last attempt writes down what
became of it. Once that is written the delivery is settled, unless the failure of an earlier
attempt arrives late and puts it back.

## Main results

* `attemptsBounded_of_reaches` — the property, in the runs of `lastAttemptHeard`.
* `not_attemptsBounded` — seven workers that stop after sending.
-/

namespace SubmitSnap

open Interleave

/-- The worker `p` is handed the delivery for the last time it may be. -/
def handsLast (p : ℕ) (id : Uuid) : Event → Prop
  | ⟨p', _, _, .webhooks (.claim_due_deliveries _ _), .ok ds⟩ =>
    p' = p ∧ ∃ d ∈ ds, d.id = id ∧ MAX_ATTEMPTS ≤ d.attempts
  | _ => False

/-- The worker `p` has written down how its attempt went. -/
def settles (p : ℕ) (id : Uuid) : Event → Prop
  | ⟨p', _, _, .webhooks (.mark_delivered id' _), .ok _⟩
  | ⟨p', _, _, .webhooks (.record_attempt_failure id' _ _ _ _), .ok _⟩ => p' = p ∧ id' = id
  | _ => False

/-- `p` holds the last attempt, and has not been heard of. -/
abbrev LastAttemptOut (p : ℕ) (id : Uuid) : List Event → Prop :=
  Since (handsLast p id) (settles p id)

/-- Who has claimed the delivery, once for each claim. -/
def claimers (id : Uuid) (log : List Event) : List ℕ := (log.filter (claimsDelivery id)).map (·.pid)

/-- Who has sent the delivery, once for each request. -/
def senders (id : Uuid) (log : List Event) : List ℕ := (log.filter (sends id)).map (·.pid)

/-- No more than `MAX_ATTEMPTS` attempts are counted, and no more than that many requests sent. -/
structure AttemptsBounded (id : Uuid) (s : State) : Prop where
  attempts : ∀ d ∈ s.db.webhook_deliveries.rows, d.id = id → d.attempts ≤ MAX_ATTEMPTS
  sent : (senders id s.log).length ≤ MAX_ATTEMPTS

/-- A redelivery of `id` is requested. -/
def requeues (id : Uuid) : Stmt → Prop
  | .webhooks (.requeue_delivery _ id') => id' = id
  | _ => False

/-- The delivery is claimed while somebody holds its last attempt, or a failure of an earlier
attempt is written over a settled last one. -/
def attemptsLost (id : Uuid) (s : State) : Stmt → Prop
  | .webhooks (.claim_due_deliveries limit _) =>
    (∃ d ∈ s.db.dueDeliveries.take limit, d.id = id) ∧
      ∃ p ∈ s.log.map (·.pid), LastAttemptOut p id s.log
  | .webhooks (.record_attempt_failure id' attempts _ _ _) =>
    id' = id ∧ attempts < MAX_ATTEMPTS ∧ ∃ d ∈ s.db.webhook_deliveries.rows,
      d.id = id ∧ d.status ≠ .pending ∧ MAX_ATTEMPTS ≤ d.attempts
  | _ => False

/-- The runs in which nobody asks to redeliver `id`; any other request may arrive, statements may
fail and processes may stop. -/
abbrev neverRedelivered (id : Uuid) : Regime :=
  (Regime.free fun _ => True).avoiding fun _ _ q _ => requeues id q

/-- Those in which, besides, its last attempt is heard of. -/
abbrev lastAttemptHeard (id : Uuid) : Regime :=
  (neverRedelivered id).avoiding fun _ _ q s => attemptsLost id s q

/-! ### Events -/

section Events

variable {p : ℕ} {r : Request} {id : Uuid} {db : Database} {q : Stmt} {log : List Event}

theorem handsLast_of_hands {n : ℕ} {e : Event} (h : hands p id n e) (hn : MAX_ATTEMPTS ≤ n) :
    handsLast p id e := by
  unfold hands at h
  split at h
  · obtain ⟨hp, d, hd, hid, rfl⟩ := h
    exact ⟨hp, d, hd, hid, hn⟩
  · exact h.elim

theorem hands_of_handsLast {e : Event} (h : handsLast p id e) :
    ∃ n, MAX_ATTEMPTS ≤ n ∧ hands p id n e := by
  unfold handsLast at h
  split at h
  · obtain ⟨hp, d, hd, hid, hn⟩ := h
    exact ⟨_, hn, hp, d, hd, hid, rfl⟩
  · exact h.elim

/-- Only a result write that selects the delivery settles it. -/
theorem selects_of_settles {p' : ℕ} {x : Except Failure q.Reply}
    (h : settles p' id ⟨p, r, db, q, x⟩) {d : WebhookDeliveryRecord} (hd : d.id = id) :
    p = p' ∧ q.selects db d := by
  unfold settles at h
  split at h
  · next heq =>
    cases heq
    exact ⟨h.1, h.2.trans hd.symm⟩
  · next heq =>
    cases heq
    exact ⟨h.1, h.2.trans hd.symm⟩
  · exact h.elim

theorem not_settles_error {p' : ℕ} {e : Failure} : ¬ settles p' id ⟨p, r, db, q, .error e⟩ := by
  unfold settles
  split
  · next heq => cases heq
  · next heq => cases heq
  · exact not_false

theorem mem_claimers {p : ℕ} :
    p ∈ claimers id log ↔ ∃ e ∈ log, claimsDelivery id e ∧ e.pid = p := by
  simp [claimers, and_assoc]

theorem mem_senders {p : ℕ} : p ∈ senders id log ↔ ∃ e ∈ log, sends id e ∧ e.pid = p := by
  simp [senders, and_assoc]

theorem claimers_cons_of {e : Event} (h : claimsDelivery id e) :
    claimers id (e :: log) = e.pid :: claimers id log := by
  simp [claimers, h]

theorem claimers_cons_of_not {e : Event} (h : ¬ claimsDelivery id e) :
    claimers id (e :: log) = claimers id log := by
  simp [claimers, h]

end Events

/-! ### Sending

A request is counted with its claim. `SentOnce` is kept by events of one kind only, requests, and
for these the precondition of the worker says all that is needed. -/

/-- Everybody sends the delivery once at most, and only after claiming it. -/
structure SentOnce (id : Uuid) (log : List Event) : Prop where
  nodup : (senders id log).Nodup
  subset : senders id log ⊆ claimers id log

theorem SentOnce.length_le {id : Uuid} {log : List Event} (h : SentOnce id log) :
    (senders id log).length ≤ (claimers id log).length :=
  (List.subperm_of_subset h.nodup h.subset).length_le

theorem SentOnce.cons {p : ℕ} {r : Request} {id : Uuid} {db : Database} {q : Stmt}
    {x : Except Failure q.Reply} {log : List Event} (h : SentOnce id log)
    (hpre : WorkerPre p log q) : SentOnce id (⟨p, r, db, q, x⟩ :: log) := by
  have hgrow : claimers id log ⊆ claimers id (⟨p, r, db, q, x⟩ :: log) := fun p' hp' => by
    obtain ⟨e, he, hclaims⟩ := mem_claimers.mp hp'
    exact mem_claimers.mpr ⟨e, List.mem_cons_of_mem _ he, hclaims⟩
  by_cases hsends : sends id ⟨p, r, db, q, x⟩
  · have hsenders : senders id (⟨p, r, db, q, x⟩ :: log) = p :: senders id log := by
      simp [senders, hsends]
    unfold sends at hsends
    split at hsends
    · next heq =>
      cases heq
      subst hsends
      obtain ⟨⟨e, he, n, hhands⟩, hunsent⟩ := hpre
      constructor
      · rw [hsenders, List.nodup_cons]
        refine ⟨fun hmem => ?_, h.nodup⟩
        obtain ⟨e', he', hsent, hp⟩ := mem_senders.mp hmem
        exact hunsent e' he' hp hsent
      · rw [hsenders]
        refine List.cons_subset.mpr ⟨mem_claimers.mpr ?_, List.Subset.trans h.subset hgrow⟩
        exact ⟨e, List.mem_cons_of_mem _ he, claimsDelivery_of_hands hhands, pid_of_hands hhands⟩
    · exact hsends.elim
  · have hsenders : senders id (⟨p, r, db, q, x⟩ :: log) = senders id log := by
      simp [senders, hsends]
    exact ⟨hsenders ▸ h.nodup, hsenders ▸ List.Subset.trans h.subset hgrow⟩

/-! ### Counting

The counter of the row and the number of claims in the log go up together. They may come apart in
one direction: the row may have been claimed before the log begins. -/

/-- The property, with what it takes to keep it: every claim is counted, and what is pending with
all its attempts used is in somebody's hands. `counted` and `claims` seem to say the same twice,
but the row may be gone, and the number of claims has to be bounded then as well. -/
structure AttemptsInv (id : Uuid) (s : State) : Prop where
  sent : SentOnce id s.log
  issued : DeliveriesIssued s.db
  owned : DeliveriesOwned s.db
  bounded : ∀ d ∈ s.db.webhook_deliveries.rows, d.id = id → d.attempts ≤ MAX_ATTEMPTS
  last : ∀ d ∈ s.db.webhook_deliveries.rows, d.id = id → d.status = .pending →
    MAX_ATTEMPTS ≤ d.attempts → ∃ p, LastAttemptOut p id s.log
  counted : ∀ d ∈ s.db.webhook_deliveries.rows, d.id = id →
    (claimers id s.log).length ≤ d.attempts
  claims : (claimers id s.log).length ≤ MAX_ATTEMPTS
  known : claimers id s.log ≠ [] → id ∈ s.db.issued

section Run

variable {P : Platform} {p : ℕ} {r : Request} {q : Stmt} {x : Except Failure q.Reply} {c : Choice}
  {id : Uuid} {s s' : State} {db' : Database}

/-- A row that is claimed has attempts left. -/
theorem AttemptsInv.attempts_lt (hs : AttemptsInv id s) {limit lease_seconds : ℕ}
    (hlost : ¬ attemptsLost id s (.webhooks (.claim_due_deliveries limit lease_seconds)))
    {d : WebhookDeliveryRecord} (hd : d ∈ s.db.dueDeliveries.take limit) (hid : d.id = id) :
    d.attempts < MAX_ATTEMPTS := by
  by_contra hmax
  obtain ⟨hrow, hpending, -⟩ := mem_dueDeliveries.mp (List.mem_of_mem_take hd)
  obtain ⟨p, hout⟩ := hs.last d hrow hid hpending (Nat.not_lt.mp hmax)
  refine hlost ⟨⟨d, hd, hid⟩, p, ?_, hout⟩
  obtain ⟨e, he, hlast⟩ := hout.exists_mem
  obtain ⟨n, -, hhands⟩ := hands_of_handsLast hlast
  exact List.mem_map.mpr ⟨e, he, pid_of_hands hhands⟩

/-- Whoever holds the last attempt still does, unless it has just settled it. -/
theorem LastAttemptOut.cons {p' : ℕ} {e : Event} {log : List Event} (h : LastAttemptOut p' id log)
    (he : ¬ settles p' id e) : LastAttemptOut p' id (e :: log) :=
  .inr ⟨he, h⟩

/-- What is pending after a statement, with all its attempts used, is in somebody's hands. -/
theorem AttemptsInv.last_run (hs : AttemptsInv id s) (hpre : WorkerPre p s.log q)
    (hrun : q.run P p c s.db = some (db', x)) (hre : ¬ requeues id q)
    (hlost : ¬ attemptsLost id s q) {d' : WebhookDeliveryRecord}
    (hd' : d' ∈ db'.webhook_deliveries.rows) (hid : d'.id = id) (hpending : d'.status = .pending)
    (hmax : MAX_ATTEMPTS ≤ d'.attempts) :
    ∃ p', LastAttemptOut p' id (⟨p, r, s.db, q, x⟩ :: s.log) := by
  rcases Stmt.delivery_step hrun hd' with ⟨d, hd, hstep⟩ | hnew
  · have hsame : d.id = id := hstep.id_eq.symm.trans hid
    cases hstep with
    | kept hsel =>
      obtain ⟨p', hout⟩ := hs.last d' hd hid hpending hmax
      exact ⟨p', hout.cons fun hset => hsel (selects_of_settles hset hsame).2⟩
    | forgotten hsel =>
      obtain ⟨p', hout⟩ := hs.last d hd hsame hpending hmax
      exact ⟨p', hout.cons fun hset => hsel (selects_of_settles hset hsame).2⟩
    | claimed htaken =>
      have hhands := hands_of_taken (p := p) (c := c) hrun htaken (hs.owned d hd) (r := r)
      rw [hsame] at hhands
      exact ⟨p, .inl (handsLast_of_hands hhands hmax)⟩
    | delivered => cases hpending
    | @failed attempts =>
      have hlt : attempts < MAX_ATTEMPTS := by
        by_contra hge
        simp [Nat.not_lt.mp hge] at hpending
      have hwas : d.status = .pending := by
        by_contra hne
        exact hlost ⟨hsame, hlt, d, hd, hsame, hne, hmax⟩
      obtain ⟨p', hout⟩ := hs.last d hd hsame hwas hmax
      refine ⟨p', hout.cons fun hset => ?_⟩
      -- The one that writes this failure was handed a lower number, and no other.
      obtain ⟨rfl, -⟩ := selects_of_settles hset hsame
      obtain ⟨e, he, hlast⟩ := hout.exists_mem
      obtain ⟨n, hn, hhands⟩ := hands_of_handsLast hlast
      have heq : n = attempts := hpre.2.1 e he n (hsame ▸ hhands)
      omega
    | requeued => exact absurd hsame hre
  · rw [hnew.attempts] at hmax
    cases hmax

/-- The counter never goes down, and goes up where the delivery is taken. -/
theorem DeliveryStep.attempts_le {db : Database} {d d' : WebhookDeliveryRecord}
    (h : DeliveryStep db q d d') : d.attempts ≤ d'.attempts := by
  cases h with
  | claimed => exact Nat.le_succ _
  | kept | forgotten | delivered | failed | requeued => exact le_rfl

theorem AttemptsInv.bounded_run (hs : AttemptsInv id s)
    (hrun : q.run P p c s.db = some (db', x)) (hlost : ¬ attemptsLost id s q)
    {d' : WebhookDeliveryRecord} (hd' : d' ∈ db'.webhook_deliveries.rows) (hid : d'.id = id) :
    d'.attempts ≤ MAX_ATTEMPTS := by
  rcases Stmt.delivery_step hrun hd' with ⟨d, hd, hstep⟩ | hnew
  · have hsame : d.id = id := hstep.id_eq.symm.trans hid
    have hbound : d.attempts ≤ MAX_ATTEMPTS := hs.bounded d hd hsame
    cases hstep with
    | claimed htaken => exact hs.attempts_lt hlost htaken hsame
    | kept | forgotten | delivered | failed | requeued => exact hbound
  · rw [hnew.attempts]
    exact Nat.zero_le _

/-- A claim is counted in the row. -/
theorem AttemptsInv.counted_run (hs : AttemptsInv id s)
    (hrun : q.run P p c s.db = some (db', x)) {d' : WebhookDeliveryRecord}
    (hd' : d' ∈ db'.webhook_deliveries.rows) (hid : d'.id = id) :
    (claimers id (⟨p, r, s.db, q, x⟩ :: s.log)).length ≤ d'.attempts := by
  by_cases hclaims : claimsDelivery id ⟨p, r, s.db, q, x⟩
  · obtain ⟨limit, lease_seconds, rfl, d₀, htaken, hid₀⟩ := taken_of_claims hrun hclaims
    have hrow₀ := (mem_dueDeliveries.mp (List.mem_of_mem_take htaken)).1
    rw [claimers_cons_of hclaims, List.length_cons]
    rcases Stmt.delivery_step hrun hd' with ⟨d, hd, hstep⟩ | hnew
    · have hsame : d.id = id := hstep.id_eq.symm.trans hid
      obtain rfl := s.db.webhook_deliveries.eq_of_key_eq hd hrow₀ (hsame.trans hid₀.symm)
      cases hstep with
      | kept hsel => exact absurd htaken hsel
      | forgotten hsel => exact absurd htaken hsel
      | claimed _ => exact Nat.succ_le_succ (hs.counted d hd hsame)
    · obtain ⟨_, _, _, _, heq, -⟩ := hnew.fan_out
      cases heq
  · rw [claimers_cons_of_not hclaims]
    rcases Stmt.delivery_step hrun hd' with ⟨d, hd, hstep⟩ | hnew
    · exact (hs.counted d hd (hstep.id_eq.symm.trans hid)).trans hstep.attempts_le
    · have hnone : claimers id s.log = [] := by
        by_contra hne
        exact hnew.new (hid ▸ hs.known hne)
      simp [hnone]

/-- Every statement of the regime keeps the invariant, if the workers keep to their preconditions.
A claim adds one to the counter and one claimer; a request adds a sender, who is a claimer already
and has not sent before. The bound is kept because a row that is claimed has attempts left
(`AttemptsInv.attempts_lt`). -/
theorem AttemptsInv.effect (hs : AttemptsInv id s) (hpre : WorkerPre p s.log q)
    (h : (lastAttemptHeard id).Effect (store P) p r q s x s') : AttemptsInv id s' := by
  cases h with
  | @fail x _ =>
    have hsame : claimers id (⟨p, r, s.db, q, .error x⟩ :: s.log) = claimers id s.log :=
      claimers_cons_of_not not_claimsDelivery_error
    refine ⟨hs.sent.cons hpre, hs.issued, hs.owned, hs.bounded, fun d hd hid hpending hmax => ?_,
      fun d hd hid => hsame ▸ hs.counted d hd hid, hsame ▸ hs.claims, fun hne => hs.known ?_⟩
    · obtain ⟨p', hout⟩ := hs.last d hd hid hpending hmax
      exact ⟨p', hout.cons not_settles_error⟩
    · exact hsame ▸ hne
  | @run c db' x hadmits hrun =>
    obtain ⟨⟨-, hre⟩, hlost⟩ := hadmits
    refine ⟨hs.sent.cons hpre, Stmt.deliveriesIssued hrun hs.issued,
      Stmt.deliveriesOwned hrun hs.owned, fun d hd hid => hs.bounded_run hrun hlost hd hid,
      fun d hd hid hpending hmax => hs.last_run hpre hrun hre hlost hd hid hpending hmax,
      fun d hd hid => hs.counted_run hrun hd hid, ?_, fun hne => ?_⟩
    · by_cases hclaims : claimsDelivery id ⟨p, r, s.db, q, x⟩
      · obtain ⟨limit, lease_seconds, rfl, d, htaken, hid⟩ := taken_of_claims hrun hclaims
        have hrow := (mem_dueDeliveries.mp (List.mem_of_mem_take htaken)).1
        have hcounted := hs.counted d hrow hid
        have hlt := hs.attempts_lt hlost htaken hid
        rw [Shared.push_log, claimers_cons_of hclaims, List.length_cons]
        omega
      · rw [Shared.push_log, claimers_cons_of_not hclaims]
        exact hs.claims
    · obtain ⟨n, hn⟩ := Stmt.issued_mono hrun
      rw [Shared.push_db, hn]
      refine List.mem_append_right _ ?_
      by_cases hclaims : claimsDelivery id ⟨p, r, s.db, q, x⟩
      · obtain ⟨limit, lease_seconds, rfl, d, htaken, rfl⟩ := taken_of_claims hrun hclaims
        exact hs.issued d (mem_dueDeliveries.mp (List.mem_of_mem_take htaken)).1
      · exact hs.known (claimers_cons_of_not hclaims ▸ hne)

variable {d : Deployment} {db : Database} {w : World}

/-- What a database satisfies in which nobody has yet gone beyond the limit. -/
structure AttemptsLeft (id : Uuid) (db : Database) : Prop where
  issued : DeliveriesIssued db
  owned : DeliveriesOwned db
  attempts : ∀ d ∈ db.webhook_deliveries.rows, d.id = id →
    d.attempts ≤ MAX_ATTEMPTS ∧ (d.status = .pending → d.attempts < MAX_ATTEMPTS)

/-- **No delivery is attempted too often**, in every run in which nobody asks to redeliver it and
its last attempt is heard of. -/
theorem attemptsBounded_of_reaches (hdb : AttemptsLeft id db)
    (h : Reaches d (lastAttemptHeard id) (World.start db) w) : AttemptsBounded id w.shared := by
  have hstart : AttemptsInv id (World.start db).shared :=
    { sent := ⟨List.nodup_nil, List.Subset.refl _⟩
      issued := hdb.issued
      owned := hdb.owned
      bounded := fun d hd hid => (hdb.attempts d hd hid).1
      last := fun d hd hid hpending hmax =>
        absurd ((hdb.attempts d hd hid).2 hpending) (Nat.not_lt.mpr hmax)
      counted := fun _ _ _ => Nat.zero_le _
      claims := Nat.zero_le _
      known := fun hne => absurd rfl hne }
  have hspec : ∀ p (r : Request) s, (lastAttemptHeard id).spawns r →
      (workerLogic d.platform (lastAttemptHeard id)).inv s → (∀ e ∈ s.log, e.pid ≠ p) →
      (workerLogic d.platform (lastAttemptHeard id)).wp p r (r.code d) (fun _ _ => True) s :=
    fun _ _ _ _ _ hfresh => wp_worker hfresh
  have hinv : AttemptsInv id w.shared :=
    Logic.inv_of_reaches hspec (.start trivial) hstart (fun _ hpre hs he => hs.effect hpre he)
      (fun _ hs => ⟨hs.sent, hs.issued, hs.owned, hs.bounded, hs.last, hs.counted, hs.claims,
        hs.known⟩)
      (fun hs => ⟨hs.sent, hs.issued, hs.owned, hs.bounded, hs.last, hs.counted, hs.claims,
        hs.known⟩) h
  exact ⟨hinv.bounded, hinv.sent.length_le.trans hinv.claims⟩

end Run

/-! ### Workers that are never heard of again

The sixth worker stops after sending. The delivery is still pending with six attempts, and the
claim does not ask how many there have been. -/

instance (p : ℕ) (id : Uuid) : DecidablePred (handsLast p id) := fun ⟨_, _, _, q, reply⟩ => by
  induction q using Stmt.casesOn with
  | webhooks q =>
    induction q using WebhookStmt.casesOn <;> induction reply using Except.casesOn <;>
      (delta handsLast; infer_instance)
  | _ => delta handsLast; infer_instance

instance (p : ℕ) (id : Uuid) : DecidablePred (settles p id) := fun ⟨_, _, _, q, reply⟩ => by
  induction q using Stmt.casesOn with
  | webhooks q =>
    induction q using WebhookStmt.casesOn <;> induction reply using Except.casesOn <;>
      (delta settles; infer_instance)
  | _ => delta settles; infer_instance

instance (id : Uuid) : DecidablePred (requeues id) := fun q => by
  delta requeues
  split <;> infer_instance

instance (id : Uuid) (s : State) : DecidablePred (attemptsLost id s) := fun q => by
  induction q using Stmt.casesOn with
  | webhooks q => induction q using WebhookStmt.casesOn <;> (delta attemptsLost; infer_instance)
  | _ => delta attemptsLost; infer_instance

/-- Workers claim the delivery, send it and stop; each time the lease runs out. -/
def sendAndStop (p : ℕ) : List Step :=
  [.spawn p .deliver_webhooks, .step p {}, .step p { response := some 500 }, .stop p,
    .pass (seconds CLAIM_LEASE_SECONDS)]

/-- **A seventh attempt**: nobody writes down that the sixth has failed. -/
theorem not_attemptsBounded : ¬ ∀ w, Reaches .sample (neverRedelivered 3)
    (World.start oneDelivery) w → AttemptsBounded 3 w.shared := by
  intro hall
  have hbounded := hall _ (Deployment.sample.reaches_play _
    ((List.range 7).flatMap sendAndStop) oneDelivery)
  have hseven : (senders 3 (Deployment.sample.play (neverRedelivered 3)
      ((List.range 7).flatMap sendAndStop) oneDelivery).shared.log).length = 7 := by
    decide +kernel
  have hsent := hbounded.sent
  rw [hseven] at hsent
  exact absurd hsent (by decide)

/-- A worker that is answered with an error, and says so; then the next attempt is due. -/
def sendAndFail (p : ℕ) : List Step :=
  [.spawn p .deliver_webhooks, .step p {}, .step p { response := some 500 }, .step p {},
    .pass (seconds 7200)]

/-- A receiver that never recovers gets six requests, and the delivery is given up on. -/
theorem attemptsBounded_givenUp :
    let s := (Deployment.sample.play (lastAttemptHeard 3)
      ((List.range 6).flatMap sendAndFail ++ [.spawn 6 .deliver_webhooks, .step 6 {}])
      oneDelivery).shared
    (senders 3 s.log).length = 6 ∧ AttemptsBounded 3 s :=
  ⟨by decide +kernel, attemptsBounded_of_reaches ⟨by decide, by decide, by decide⟩
    (Deployment.sample.reaches_play (lastAttemptHeard 3) _ oneDelivery)⟩

end SubmitSnap
