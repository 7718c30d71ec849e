import SubmitSnap.Webhook.Deliveries

/-!
# The outbox table: what single statements do to it

An event enters the table with the commit of its submission and leaves it only with its
organization. In between a claim pushes `available_at` forward, a reschedule sets it, and
`mark_dispatched` takes the event out of the queue for good.

## The argument

A claim sorts the due events and takes as many as it may from the front. So if a due event is not
among those taken, the batch is full, and everything in it comes before that event in the order.
The order is total and transitive, by the time at which events fall due and then by their
identifiers, which makes the sorted list sorted.

## Main results

* `claim_due_hands_out` — an event that is due is handed out, or a full batch is that was due no
  later.
* `Database.oneDelivery_insertDeliveries` — a fan-out makes no second delivery of a submission.
-/

namespace SubmitSnap

open Interleave

variable {P : Platform} {p : ℕ} {c : Choice} {db db' : Database}

/-! ### Commits -/

/-- Events a commit does not write are the ones that were there. -/
theorem mem_applyAll_events {ws : List Write} {ev : OutboxEvent}
    (h : ev ∈ (Write.applyAll db ws).outbox_events.rows) :
    ev ∈ db.outbox_events.rows ∨
      Write.outbox_event ev ∈ ws ∧ db.outbox_events.hasKey ev.id = false := by
  induction ws generalizing db with
  | nil => exact .inl h
  | cons w ws ih =>
    rw [Write.applyAll_cons] at h
    rcases ih h with hev | ⟨hev, hkey⟩
    · cases w with
      | outbox_event row =>
        rcases Table.mem_insertNew.mp hev with hev | ⟨rfl, hkey⟩
        · exact .inl hev
        · exact .inr ⟨List.mem_cons_self, hkey⟩
      | _ => exact .inl hev
    · refine .inr ⟨List.mem_cons_of_mem _ hev, ?_⟩
      rw [Table.hasKey_eq_false] at hkey ⊢
      intro row hrow
      refine hkey row ?_
      cases w with
      | outbox_event row' => exact Table.mem_insertNew_of_mem hrow
      | _ => exact hrow

/-- No commit removes an event. -/
theorem mem_applyAll_events_of_mem {ws : List Write} {ev : OutboxEvent}
    (h : ev ∈ db.outbox_events.rows) : ev ∈ (Write.applyAll db ws).outbox_events.rows := by
  induction ws generalizing db with
  | nil => exact h
  | cons w ws ih =>
    refine ih ?_
    cases w with
    | outbox_event row => exact Table.mem_insertNew_of_mem h
    | _ => exact h

/-- After the commit the events it wrote are there. -/
theorem exists_event_applyAll {ws : List Write} {ev : OutboxEvent}
    (h : Write.outbox_event ev ∈ ws) :
    ∃ ev' ∈ (Write.applyAll db ws).outbox_events.rows, ev'.id = ev.id := by
  induction ws generalizing db with
  | nil => cases h
  | cons w ws ih =>
    rcases List.mem_cons.mp h with rfl | h
    · obtain ⟨ev', hev', hid⟩ := Table.hasKey_iff.mp (db.outbox_events.hasKey_insertNew_self ev)
      refine ⟨ev', ?_, hid⟩
      rw [Write.applyAll_cons]
      exact mem_applyAll_events_of_mem hev'
    · exact ih h

/-! ### Claims -/

/-- The order in which due events are claimed. -/
def OutboxEvent.DueBefore (e e' : OutboxEvent) : Prop :=
  e.available_at < e'.available_at ∨ (e.available_at = e'.available_at ∧ e.id ≤ e'.id)

instance : DecidableRel OutboxEvent.DueBefore := fun e e' =>
  inferInstanceAs (Decidable (e.available_at < e'.available_at ∨
    (e.available_at = e'.available_at ∧ e.id ≤ e'.id)))

instance : Std.Total OutboxEvent.DueBefore where
  total e e' := by
    rcases lt_trichotomy e.available_at e'.available_at with h | h | h
    · exact .inl (.inl h)
    · rcases le_total e.id e'.id with hid | hid
      · exact .inl (.inr ⟨h, hid⟩)
      · exact .inr (.inr ⟨h.symm, hid⟩)
    · exact .inr (.inl h)

instance : IsTrans OutboxEvent OutboxEvent.DueBefore where
  trans e e' e'' h h' := by
    rcases h with h | ⟨h, hid⟩ <;> rcases h' with h' | ⟨h', hid'⟩
    · exact .inl (h.trans h')
    · exact .inl (h' ▸ h)
    · exact .inl (h ▸ h')
    · exact .inr ⟨h.trans h', hid.trans hid'⟩

theorem mem_dueEvents {ev : OutboxEvent} : ev ∈ db.dueEvents ↔
    ev ∈ db.outbox_events.rows ∧ ev.dispatched_at = none ∧ ev.available_at ≤ db.clock := by
  simp [Database.dueEvents, List.mem_insertionSort]

theorem pairwise_dueEvents : db.dueEvents.Pairwise OutboxEvent.DueBefore :=
  List.pairwise_insertionSort OutboxEvent.DueBefore _

/-- The event `ev` as a claim leaves it. -/
def OutboxEvent.taken (ev : OutboxEvent) (now : Timestamp) (lease_seconds : ℕ) : OutboxEvent :=
  { ev with attempts := ev.attempts + 1, available_at := now + seconds lease_seconds }

/-- **What is due is handed out**, or a full batch is that was due no later. -/
theorem claim_due_hands_out {limit lease_seconds : ℕ} {x : Except Failure (List OutboxEvent)}
    (h : (OutboxStmt.claim_due limit lease_seconds).run db = some (db', x)) {ev : OutboxEvent}
    (hev : ev ∈ db.outbox_events.rows) (hopen : ev.dispatched_at = none)
    (hdue : ev.available_at ≤ db.clock) :
    ∃ handed, x = .ok handed ∧ ((∃ ev' ∈ handed, ev'.id = ev.id) ∨
      handed.length = limit ∧ ∀ ev' ∈ handed, ∃ ev₀ ∈ db.outbox_events.rows,
        ev' = ev₀.taken db.clock lease_seconds ∧ ev₀.DueBefore ev) := by
  simp only [OutboxStmt.run, Option.some.injEq, Prod.mk.injEq] at h
  obtain ⟨-, rfl⟩ := h
  refine ⟨_, rfl, ?_⟩
  have hmem : ev ∈ db.dueEvents.take limit ++ db.dueEvents.drop limit := by
    rw [List.take_append_drop]
    exact mem_dueEvents.mpr ⟨hev, hopen, hdue⟩
  rcases List.mem_append.mp hmem with htake | hdrop
  · exact .inl ⟨_, List.mem_map_of_mem htake, rfl⟩
  · right
    have hlimit : limit ≤ db.dueEvents.length := by
      by_contra hlt
      rw [List.drop_eq_nil_of_le (Nat.le_of_not_le hlt)] at hdrop
      cases hdrop
    refine ⟨by simp [hlimit], fun ev' hev' => ?_⟩
    obtain ⟨ev₀, hev₀, rfl⟩ := List.mem_map.mp hev'
    have hpair : db.dueEvents.Pairwise OutboxEvent.DueBefore := pairwise_dueEvents
    rw [← List.take_append_drop limit db.dueEvents, List.pairwise_append] at hpair
    exact ⟨ev₀, (mem_dueEvents.mp (List.mem_of_mem_take hev₀)).1, rfl,
      hpair.2.2 ev₀ hev₀ ev hdrop⟩

/-- Only events that are due are handed out. -/
theorem due_of_handed {limit lease_seconds : ℕ} {handed : List OutboxEvent}
    (h : (OutboxStmt.claim_due limit lease_seconds).run db = some (db', .ok handed))
    {ev' : OutboxEvent} (hev' : ev' ∈ handed) :
    ∃ ev ∈ db.outbox_events.rows, ev' = ev.taken db.clock lease_seconds ∧
      ev.dispatched_at = none ∧ ev.available_at ≤ db.clock := by
  simp only [OutboxStmt.run, Option.some.injEq, Prod.mk.injEq, Except.ok.injEq] at h
  obtain ⟨-, rfl⟩ := h
  obtain ⟨ev, hev, rfl⟩ := List.mem_map.mp hev'
  obtain ⟨hmem, hopen, hdue⟩ := mem_dueEvents.mp (List.mem_of_mem_take hev)
  exact ⟨ev, hmem, rfl, hopen, hdue⟩

/-- What a claim leaves in the table: what it has handed out, and the rest as it was. -/
theorem mem_events_of_claim {limit lease_seconds : ℕ} {handed : List OutboxEvent}
    (h : (OutboxStmt.claim_due limit lease_seconds).run db = some (db', .ok handed))
    {ev' : OutboxEvent} (hev' : ev' ∈ db'.outbox_events.rows) :
    (ev' ∈ handed ∧ ∃ ev ∈ db.outbox_events.rows, ev' = ev.taken db.clock lease_seconds) ∨
      (ev' ∈ db.outbox_events.rows ∧ ∀ ev ∈ handed, ev.id ≠ ev'.id) := by
  simp only [OutboxStmt.run, Option.some.injEq, Prod.mk.injEq, Except.ok.injEq] at h
  obtain ⟨rfl, rfl⟩ := h
  obtain ⟨ev, hev, ⟨hsel, rfl⟩ | ⟨hsel, rfl⟩⟩ := Table.of_mem_updateWhere hev'
  · refine .inl ⟨?_, ev, hev, rfl⟩
    obtain ⟨ev₀, hev₀, hid⟩ := List.mem_map.mp (of_decide_eq_true hsel)
    obtain rfl := Table.eq_of_key_eq _
      (mem_dueEvents.mp (List.mem_of_mem_take hev₀)).1 hev hid
    exact List.mem_map_of_mem hev₀
  · refine .inr ⟨hev, fun ev hmem hid => ?_⟩
    obtain ⟨ev₀, hev₀, rfl⟩ := List.mem_map.mp hmem
    exact of_decide_eq_false hsel (List.mem_map.mpr ⟨ev₀, hev₀, hid⟩)

/-- No outbox statement removes an event. -/
theorem OutboxStmt.kept {q : OutboxStmt} {x : Except Failure q.Reply}
    (h : q.run db = some (db', x)) {ev : OutboxEvent} (hev : ev ∈ db.outbox_events.rows) :
    ∃ ev' ∈ db'.outbox_events.rows, ev'.id = ev.id ∧ ev'.submission_id = ev.submission_id := by
  cases q with
  | notification_source submission_id =>
    cases h
    exact ⟨ev, hev, rfl, rfl⟩
  | claim_due _ _ | mark_dispatched _ | reschedule _ _ _ =>
    cases h
    refine ⟨_, List.mem_map.mpr ⟨ev, hev, rfl⟩, ?_⟩
    split <;> exact ⟨rfl, rfl⟩

/-! ### Every statement

Events come from commits and go with their organization. Everything else about them is in the
outbox statements. -/

/-- The statements that are neither the outbox's own nor a commit only take events away. -/
theorem Stmt.events_subset {q : Stmt} {x : Except Failure q.Reply}
    (h : q.run P p c db = some (db', x)) (houtbox : ∀ q', q ≠ .outbox q')
    (hcommit : ∀ writes, q ≠ .commit writes) {ev : OutboxEvent}
    (hev : ev ∈ db'.outbox_events.rows) : ev ∈ db.outbox_events.rows := by
  cases hreach : Part.outbox_events.reachedBy q with
  | false =>
    have hsame : db'.outbox_events = db.outbox_events := Stmt.footprint .outbox_events hreach h
    exact hsame ▸ hev
  | true =>
    cases q with
    | outbox q => exact absurd rfl (houtbox q)
    | commit writes => exact absurd rfl (hcommit writes)
    | organizations q =>
      cases q with
      | delete id =>
        simp only [Stmt.run, OrganizationStmt.run] at h
        split at h <;> cases h
        exact (Table.mem_deleteWhere.mp hev).1
      | _ => cases hreach
    | _ => cases hreach

/-- **Where an event comes from**: it was there before, and is dispatched if it was, or a commit has
written it. -/
theorem Stmt.event_origin {q : Stmt} {x : Except Failure q.Reply}
    (h : q.run P p c db = some (db', x)) {ev' : OutboxEvent} (hev' : ev' ∈ db'.outbox_events.rows) :
    (∃ ev ∈ db.outbox_events.rows, ev.id = ev'.id ∧ ev.submission_id = ev'.submission_id ∧
      (ev.dispatched_at ≠ none → ev'.dispatched_at ≠ none)) ∨
      ∃ writes, q = .commit writes ∧ Write.outbox_event ev' ∈ writes := by
  by_cases houtbox : ∃ q', q = .outbox q'
  · obtain ⟨q', rfl⟩ := houtbox
    left
    cases q' with
    | claim_due _ _ | reschedule _ _ _ =>
      cases h
      obtain ⟨ev, hev, ⟨-, rfl⟩ | ⟨-, rfl⟩⟩ := Table.of_mem_updateWhere hev'
      · exact ⟨ev, hev, rfl, rfl, id⟩
      · exact ⟨_, hev, rfl, rfl, id⟩
    | mark_dispatched id =>
      cases h
      obtain ⟨ev, hev, ⟨-, rfl⟩ | ⟨-, rfl⟩⟩ := Table.of_mem_updateWhere hev'
      · exact ⟨ev, hev, rfl, rfl, fun _ => nofun⟩
      · exact ⟨_, hev, rfl, rfl, fun hdone => hdone⟩
    | notification_source submission_id =>
      cases h
      exact ⟨ev', hev', rfl, rfl, id⟩
  · by_cases hcommit : ∃ writes, q = .commit writes
    · obtain ⟨writes, rfl⟩ := hcommit
      cases h
      rcases mem_applyAll_events hev' with hev | ⟨hmem, -⟩
      · exact .inl ⟨ev', hev, rfl, rfl, id⟩
      · exact .inr ⟨writes, rfl, hmem⟩
    · exact .inl ⟨ev', Stmt.events_subset h (fun q' heq => houtbox ⟨q', heq⟩)
        (fun writes heq => hcommit ⟨writes, heq⟩) hev', rfl, rfl, id⟩

/-! ### Deliveries -/

/-- An endpoint has at most one delivery for a submission that exists. -/
def OneDelivery (db : Database) : Prop :=
  ∀ d ∈ db.webhook_deliveries.rows, ∀ d' ∈ db.webhook_deliveries.rows,
    d.endpoint_id = d'.endpoint_id → d.submission_id = d'.submission_id →
    d.submission_id ≠ none → d = d'

theorem OneDelivery.of_from (h : OneDelivery db) (hfrom : DeliveriesFrom db db') :
    OneDelivery db' := by
  intro d₁ hd₁ d₂ hd₂ hendpoint hsubmission hsome
  obtain ⟨d, hd, rfl | rfl⟩ := hfrom d₁ hd₁
  · obtain ⟨d', hd', rfl | rfl⟩ := hfrom d₂ hd₂
    · exact h _ hd _ hd' hendpoint hsubmission hsome
    · exact absurd hsubmission hsome
  · exact absurd rfl hsome

/-- A fan-out makes no second delivery. -/
theorem OneDelivery.insertDeliveries (h : OneDelivery db) (organization_id submission_id : Uuid)
    (payload : Value) (endpoints : List Uuid) (id : Uuid) :
    OneDelivery (db.insertDeliveries organization_id submission_id payload endpoints id) := by
  induction endpoints generalizing db id with
  | nil => exact h
  | cons endpoint_id rest ih =>
    rw [Database.insertDeliveries]
    refine ih ?_ (id + 1)
    split
    · exact h
    · next hnone =>
      have hnew : ∀ d ∈ db.webhook_deliveries.rows, d.endpoint_id = endpoint_id →
          d.submission_id ≠ some submission_id := by
        simpa using hnone
      intro d hd d' hd' hendpoint hsubmission hsome
      rcases Table.mem_insertNew.mp hd with hd | ⟨rfl, -⟩ <;>
        rcases Table.mem_insertNew.mp hd' with hd' | ⟨rfl, -⟩
      · exact h d hd d' hd' hendpoint hsubmission hsome
      · exact absurd hsubmission (hnew d hd hendpoint)
      · exact absurd hsubmission.symm (hnew d' hd' hendpoint.symm)
      · rfl

end SubmitSnap
