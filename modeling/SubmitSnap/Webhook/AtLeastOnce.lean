import SubmitSnap.Footprints
import SubmitSnap.Webhook.OutboxTable

/-!
# The outbox: leases, and dispatch at least once

A dispatcher claims a batch of events, each leased for two minutes, and settles them one by one: the
webhook fan-out, then the emails, then `mark_dispatched`; or `reschedule`, when one of these fails.
A worker that dies leaves its events to whoever comes after the lease.

`DispatchSound` is what the outbox promises, read off the state and the trace. All of it holds in
every run in which an event is only put back by the worker that claimed it last. `reschedule` itself
does not look: a worker whose lease has run out takes the lease of its successor away.

## The argument

The table knows nothing of leases. It has a column `available_at`, and a lease is respected
because nothing is handed out before that time. So the invariant ties the two together: as long as
a lease on an open event has not run out, the row is not available before its end
(`LeaseInv.leased`). A claim keeps this, for it sets the column to the end of the new lease and
every older one has expired. A reschedule sets the column to some earlier time, and then the lease
of somebody else would be worth nothing; this is why only the last claimer may do it, since all
other leases have expired by then (`LeaseInv.expired`).

That dispatched events have been dispatched needs no invariant of the table. `mark_dispatched` is
the only statement that sets the column, and its precondition is the evidence: everything the
worker has done, as found in the log.

## Main definitions

* `LeaseHeld` — a worker has claimed an event and not put it back.
* `DispatchEvidence` — what a worker has done about an event.
* `DispatchSound` — leases are exclusive; open events stay, fall due and are handed out; dispatched
  ones have been dispatched; no endpoint has two deliveries of a submission.

## Main results

* `dispatchSound_of_reaches` — the promise, in the runs of `ownersReschedule`.
* `not_dispatchSound` — a slow worker fails after its lease has been taken over.
-/

namespace SubmitSnap

open Interleave
open Interleave.Script (ret when mapError result forEach)

/-! ### The promise

The promise is about two different things: the table, in which events stay until they are
dispatched, and the workers, who hold leases that the table knows nothing of. It is stated on
both. -/

/-- The event hands the outbox event `id` to a worker. -/
def claimsEvent (id : Uuid) : Event → Prop
  | ⟨_, _, _, .outbox (.claim_due _ _), .ok handed⟩ => ∃ ev ∈ handed, ev.id = id
  | _ => False

/-- The event leases `id` to `p` until `t`. -/
def leasesEvent (p : ℕ) (id : Uuid) (t : Timestamp) : Event → Prop
  | ⟨p', _, before, .outbox (.claim_due _ lease_seconds), .ok handed⟩ =>
    p' = p ∧ (∃ ev ∈ handed, ev.id = id) ∧ t = before.clock + seconds lease_seconds
  | _ => False

/-- The event is `p` putting `id` back. -/
def putsBack (p : ℕ) (id : Uuid) : Event → Prop
  | ⟨p', _, _, .outbox (.reschedule id' _ _), .ok _⟩ => p' = p ∧ id' = id
  | _ => False

/-- `p` has leased `id` until `t` and has not put it back. -/
abbrev LeaseHeld (p : ℕ) (id : Uuid) (t : Timestamp) : List Event → Prop :=
  Since (leasesEvent p id t) (putsBack p id)

/-- `p` is the worker that has claimed `id` last. -/
abbrev LastClaimed (p : ℕ) (id : Uuid) : List Event → Prop :=
  Since (fun e => e.pid = p ∧ claimsEvent id e) (claimsEvent id)

/-- Worker `p` was handed the event `ev`. -/
def WasHanded (p : ℕ) (ev : OutboxEvent) (log : List Event) : Prop :=
  ∃ r db limit lease_seconds events,
    ⟨p, r, db, .outbox (.claim_due limit lease_seconds), .ok events⟩ ∈ log ∧ ev ∈ events

/-- What worker `p` has to show for the outbox event `ev`: it was handed the event, and either found
its submission gone, or completed the fan-out and enqueued an email for every address. -/
structure DispatchEvidence (p : ℕ) (ev : OutboxEvent) (log : List Event) : Prop where
  handed : WasHanded p ev log
  done : (∃ r db, ⟨p, r, db, .outbox (.notification_source ev.submission_id), .ok none⟩ ∈ log ∧
      db.submissions.hasKey ev.submission_id = false) ∨
    ∃ r db source, ⟨p, r, db, .outbox (.notification_source ev.submission_id),
        .ok (some source)⟩ ∈ log ∧
      (∃ r db now endpoints, ⟨p, r, db, .webhooks (.fan_out_scan source.organization_id
        source.form_id), .ok (now, endpoints)⟩ ∈ log ∧
        ∃ r db n, ⟨p, r, db, .webhooks (.fan_out_insert source.organization_id
          source.submission_id (webhook_payload source) endpoints), .ok n⟩ ∈ log) ∧
      ∀ recipient ∈ source.notify_emails, ∃ r db,
        ⟨p, r, db, .enqueue (notification_email source recipient), .ok ()⟩ ∈ log

/-- The outbox event has been committed, now or before the run began from `db₀`. -/
def Owed (db₀ : Database) (log : List Event) (ev : OutboxEvent) : Prop :=
  ev ∈ db₀.outbox_events.rows ∨
    ∃ p r db writes, ⟨p, r, db, .commit writes, .ok ()⟩ ∈ log ∧ Write.outbox_event ev ∈ writes

/-- The longest delay before an open event is due. -/
def MAX_DELAY_SECONDS : ℕ := 3600

/-- What the outbox promises in a run from `db₀`. -/
structure DispatchSound (db₀ : Database) (s : State) : Prop where
  /-- Nothing is handed out while somebody holds a lease on it. -/
  exclusive : Throughout (fun e log => ∀ id p t, claimsEvent id e → LeaseHeld p id t log →
    t ≤ e.before.clock) s.log
  /-- Every committed event stays in the table. -/
  kept : ∀ ev, Owed db₀ s.log ev → ∃ ev' ∈ s.db.outbox_events.rows, ev'.id = ev.id
  /-- An open one falls due. -/
  bounded : ∀ ev ∈ s.db.outbox_events.rows, ev.dispatched_at = none →
    ev.available_at ≤ s.db.clock + seconds MAX_DELAY_SECONDS
  /-- Once it has, a claim hands it out, or a full batch that was due no later. -/
  handed_out : ∀ ev ∈ s.db.outbox_events.rows, ev.dispatched_at = none →
    ev.available_at ≤ s.db.clock → ∀ limit lease_seconds db' x,
    (OutboxStmt.claim_due limit lease_seconds).run s.db = some (db', x) →
    ∃ handed, x = .ok handed ∧ ((∃ ev' ∈ handed, ev'.id = ev.id) ∨
      handed.length = limit ∧ ∀ ev' ∈ handed, ∃ ev₀ ∈ s.db.outbox_events.rows,
        ev' = ev₀.taken s.db.clock lease_seconds ∧ ev₀.DueBefore ev)
  /-- A dispatched one has been dispatched. -/
  dispatched : ∀ ev ∈ s.db.outbox_events.rows, ev.dispatched_at ≠ none →
    (∃ ev₀ ∈ db₀.outbox_events.rows, ev₀.id = ev.id ∧ ev₀.dispatched_at ≠ none) ∨
    ∃ p ev', ev'.id = ev.id ∧ ev'.submission_id = ev.submission_id ∧ DispatchEvidence p ev' s.log
  one_delivery : OneDelivery s.db

/-- A worker puts back an event somebody else has claimed since. -/
def reschedulesStale (p : ℕ) (log : List Event) : Stmt → Prop
  | .outbox (.reschedule id _ _) => ¬ LastClaimed p id log
  | _ => False

/-- The requests of the promise: submissions, their deletion, and any number of workers. -/
def Request.touchesOutbox : Request → Prop
  | submit _ _ _ _ | delete_submission _ _ _ | dispatch_outbox => True
  | _ => False

/-- The runs in which an event is only put back by the worker that claimed it last. Any statement
may fail, and any process may stop. -/
abbrev ownersReschedule : Regime :=
  (Regime.free Request.touchesOutbox).avoiding fun p _ q s => reschedulesStale p s.log q

/-! ### Invariant and preconditions -/

/-- What a commit may write. -/
def WritesOpen (db : Database) (writes : List Write) : Prop :=
  (∀ ev, Write.outbox_event ev ∈ writes → ev.dispatched_at = none ∧ ev.available_at ≤ db.clock) ∧
  ∀ row, Write.submission row ∈ writes → db.forms.hasKey row.form_id = true

/-- The statements of the three requests, each with what has to hold when it is issued. -/
def OutboxPre (p : ℕ) (s : State) : Stmt → Prop
  | .organizations (.access _ _) | .forms (.find_by_public_id _) | .submissions (.insert _ _)
  | .submissions (.delete _ _) | .uploads (.lock_for_claim _ _) | .uploads (.claim _)
  | .webhooks (.fan_out_scan _ _) | .webhooks (.fan_out_insert _ _ _ _)
  | .outbox (.notification_source _) | .begin_tx | .rollback | .check_key _ | .enqueue _
  | .queue_reply _ => True
  | .outbox (.claim_due _ delay) | .outbox (.reschedule _ _ delay) => delay ≤ MAX_DELAY_SECONDS
  | .outbox (.mark_dispatched id) => ∃ ev, ev.id = id ∧ DispatchEvidence p ev s.log
  | .commit writes => WritesOpen s.db writes
  | _ => False

/-- The leases, with what it takes to keep them exclusive: no unexpired one lasts longer than the
row says, and none but that of the last claim is unexpired. -/
structure LeaseInv (s : State) : Prop where
  exclusive : Throughout (fun e log => ∀ id p t, claimsEvent id e → LeaseHeld p id t log →
    t ≤ e.before.clock) s.log
  handed : ∀ p ev, WasHanded p ev s.log → ∃ ev' ∈ s.db.outbox_events.rows,
    ev'.id = ev.id ∧ ev'.submission_id = ev.submission_id
  leased : ∀ id p t, LeaseHeld p id t s.log → ∀ ev ∈ s.db.outbox_events.rows, ev.id = id →
    ev.dispatched_at = none → t ≤ max ev.available_at s.db.clock
  expired : ∀ id p t, LeaseHeld p id t s.log → ¬ LastClaimed p id s.log → t ≤ s.db.clock
  bounded : ∀ ev ∈ s.db.outbox_events.rows, ev.dispatched_at = none →
    ev.available_at ≤ s.db.clock + seconds MAX_DELAY_SECONDS

/-- The rest of the promise; a submission always has its form, so a join that finds nothing has
missed the submission. This is the one place where an answer of the database has to be
interpreted: `notification_source` joins the submission with its form, and the dispatcher takes an
empty answer to mean that the submission has been deleted. -/
structure SettleInv (db₀ : Database) (s : State) : Prop where
  kept : ∀ ev, Owed db₀ s.log ev → ∃ ev' ∈ s.db.outbox_events.rows, ev'.id = ev.id
  dispatched : ∀ ev ∈ s.db.outbox_events.rows, ev.dispatched_at ≠ none →
    (∃ ev₀ ∈ db₀.outbox_events.rows, ev₀.id = ev.id ∧ ev₀.dispatched_at ≠ none) ∨
    ∃ p ev', ev'.id = ev.id ∧ ev'.submission_id = ev.submission_id ∧ DispatchEvidence p ev' s.log
  one_delivery : OneDelivery s.db
  form : ∀ row ∈ s.db.submissions.rows, s.db.forms.hasKey row.form_id = true

structure OutboxInv (db₀ : Database) (s : State) : Prop where
  leases : LeaseInv s
  settles : SettleInv db₀ s

theorem OutboxInv.sound {db₀ : Database} {s : State} (hs : OutboxInv db₀ s) :
    DispatchSound db₀ s where
  exclusive := hs.leases.exclusive
  kept := hs.settles.kept
  bounded := hs.leases.bounded
  handed_out := fun _ hev hopen hdue _ _ _ _ h => claim_due_hands_out h hev hopen hdue
  dispatched := hs.settles.dispatched
  one_delivery := hs.settles.one_delivery

/-! ### Leases

A lease is an event of the log. It ends by being put back, or by the clock; nothing is written
when it runs out. -/

section Leases

variable {p p' : ℕ} {r : Request} {q : Stmt} {x : Except Failure q.Reply} {id : Uuid}
  {t : Timestamp} {s s' : State} {db db' : Database} {e : Event} {ev : OutboxEvent}
  {log : List Event}

theorem claimsEvent_of_leases (h : leasesEvent p id t e) : claimsEvent id e := by
  unfold leasesEvent at h
  split at h
  · exact h.2.1
  · exact h.elim

/-- The event is neither a claim nor an event put back. -/
def Quiet (e : Event) : Prop := (∀ id, ¬ claimsEvent id e) ∧ ∀ p id, ¬ putsBack p id e

theorem leaseHeld_cons_of_quiet (he : Quiet e) :
    LeaseHeld p id t (e :: log) ↔ LeaseHeld p id t log :=
  since_cons_of_not (fun h => he.1 id (claimsEvent_of_leases h)) (he.2 p id)

theorem lastClaimed_cons_of_quiet (he : Quiet e) :
    LastClaimed p id (e :: log) ↔ LastClaimed p id log :=
  since_cons_of_not (fun h => he.1 id h.2) (he.1 id)

theorem wasHanded_cons : WasHanded p ev (e :: log) ↔
    (∃ r db limit lease_seconds events,
      e = ⟨p, r, db, .outbox (.claim_due limit lease_seconds), .ok events⟩ ∧ ev ∈ events) ∨
      WasHanded p ev log := by
  simp only [WasHanded, List.mem_cons, or_and_right, exists_or, eq_comm]

theorem claimsEvent_of_mem {limit lease_seconds : ℕ} {events : List OutboxEvent}
    (he : e = ⟨p, r, db, .outbox (.claim_due limit lease_seconds), .ok events⟩)
    (hev : ev ∈ events) : claimsEvent ev.id e := by
  subst he
  exact ⟨ev, hev, rfl⟩

theorem wasHanded_cons_of_quiet (he : Quiet e) :
    WasHanded p ev (e :: log) ↔ WasHanded p ev log := by
  rw [wasHanded_cons]
  refine or_iff_right ?_
  rintro ⟨_, _, _, _, _, heq, hev⟩
  exact he.1 _ (claimsEvent_of_mem heq hev)

theorem LeaseHeld.wasHanded (h : LeaseHeld p id t log) : ∃ ev, ev.id = id ∧ WasHanded p ev log := by
  obtain ⟨e, he, hl⟩ := h.exists_mem
  unfold leasesEvent at hl
  split at hl
  · obtain ⟨rfl, ⟨ev, hev, rfl⟩, -⟩ := hl
    exact ⟨ev, rfl, _, _, _, _, _, he, hev⟩
  · exact hl.elim

/-- What anything but a claim and a reschedule does to the events: they stay, open ones as they
are, and new ones are due at once. -/
structure EventsKept (db db' : Database) : Prop where
  clock : db'.clock = db.clock
  kept : ∀ ev ∈ db.outbox_events.rows, ∃ ev' ∈ db'.outbox_events.rows,
    ev'.id = ev.id ∧ ev'.submission_id = ev.submission_id
  origin : ∀ ev' ∈ db'.outbox_events.rows, ev'.dispatched_at = none →
    (∃ ev ∈ db.outbox_events.rows, ev.id = ev'.id ∧ ev.dispatched_at = none ∧
      ev'.available_at = ev.available_at) ∨
    (db.outbox_events.hasKey ev'.id = false ∧ ev'.available_at ≤ db.clock)

theorem EventsKept.of_eq (h : db'.outbox_events = db.outbox_events)
    (hclock : db'.clock = db.clock) :
    EventsKept db db' := by
  refine ⟨hclock, fun ev hev => ⟨ev, h ▸ hev, rfl, rfl⟩, fun ev hev hopen => ?_⟩
  rw [h] at hev
  exact .inl ⟨ev, hev, rfl, hopen, rfl⟩

/-- A quiet event that keeps the events keeps the leases. -/
theorem LeaseInv.quiet (hs : LeaseInv s) (he : Quiet e) (hdb : EventsKept s.db db') :
    LeaseInv ⟨db', e :: s.log⟩ where
  exclusive := ⟨fun id _ _ hc => absurd hc (he.1 id), hs.exclusive⟩
  handed := by
    intro p ev hev
    obtain ⟨ev₁, hev₁, hid₁, hsub₁⟩ := hs.handed p ev ((wasHanded_cons_of_quiet he).mp hev)
    obtain ⟨ev₂, hev₂, hid₂, hsub₂⟩ := hdb.kept ev₁ hev₁
    exact ⟨ev₂, hev₂, hid₂.trans hid₁, hsub₂.trans hsub₁⟩
  leased := by
    intro id p t hlease ev' hev' hid hopen
    have hlease := (leaseHeld_cons_of_quiet he).mp hlease
    change t ≤ max ev'.available_at db'.clock
    rw [hdb.clock]
    rcases hdb.origin ev' hev' hopen with ⟨ev, hev, hevid, hevopen, hdue⟩ | ⟨hnew, -⟩
    · rw [hdue]
      exact hs.leased id p t hlease ev hev (hevid.trans hid) hevopen
    · obtain ⟨ev, rfl, hwas⟩ := hlease.wasHanded
      obtain ⟨ev₁, hev₁, hid₁, -⟩ := hs.handed p ev hwas
      exact absurd (hid₁.trans hid.symm) (Table.hasKey_eq_false.mp hnew ev₁ hev₁)
  expired := by
    intro id p t hlease hlast
    change t ≤ db'.clock
    rw [hdb.clock]
    exact hs.expired id p t ((leaseHeld_cons_of_quiet he).mp hlease)
      fun h => hlast ((lastClaimed_cons_of_quiet he).mpr h)
  bounded := by
    intro ev' hev' hopen
    change ev'.available_at ≤ db'.clock + _
    rw [hdb.clock]
    rcases hdb.origin ev' hev' hopen with ⟨ev, hev, -, hevopen, hdue⟩ | ⟨-, hdue⟩
    · rw [hdue]
      exact hs.bounded ev hev hevopen
    · exact hdue.trans (Nat.le_add_right _ _)

/-- Only one worker is the last to have claimed an event. -/
theorem lastClaimed_unique (h : LastClaimed p id log) (h' : LastClaimed p' id log) : p = p' := by
  induction log with
  | nil => exact absurd h since_nil
  | cons e log ih =>
    rcases h with ⟨hpid, hc⟩ | ⟨hnc, h⟩
    · rcases h' with ⟨hpid', -⟩ | ⟨hnc, -⟩
      · exact hpid.symm.trans hpid'
      · exact absurd hc hnc
    · rcases h' with ⟨-, hc⟩ | ⟨-, h'⟩
      · exact absurd hc hnc
      · exact ih h h'

/-- A claim keeps the leases: what it hands out was due, so every lease on it has expired. -/
theorem LeaseInv.claim (hs : LeaseInv s) {limit lease_seconds : ℕ} {handed : List OutboxEvent}
    (hdelay : lease_seconds ≤ MAX_DELAY_SECONDS)
    (h : (OutboxStmt.claim_due limit lease_seconds).run s.db = some (db', .ok handed)) :
    LeaseInv ⟨db', ⟨p, r, s.db, .outbox (.claim_due limit lease_seconds), .ok handed⟩ ::
      s.log⟩ := by
  have hclock : db'.clock = s.db.clock := by
    cases h
    rfl
  have hdue : ∀ {p' t ev'}, ev' ∈ handed → LeaseHeld p' ev'.id t s.log → t ≤ s.db.clock := by
    intro p' t ev' hev' hlease
    obtain ⟨ev, hev, rfl, hopen, hdue⟩ := due_of_handed h hev'
    exact (hs.leased _ _ _ hlease ev hev rfl hopen).trans (max_le hdue le_rfl)
  refine ⟨⟨?_, hs.exclusive⟩, ?_, ?_, ?_, ?_⟩
  · rintro _ p' t ⟨ev', hev', rfl⟩ hlease
    exact hdue hev' hlease
  · intro p' ev hwas
    rcases wasHanded_cons.mp hwas with ⟨_, _, _, _, _, heq, hev⟩ | hwas
    · cases heq
      obtain ⟨ev₀, hev₀, rfl, -⟩ := due_of_handed h hev
      obtain ⟨ev₁, hev₁, hsame⟩ := OutboxStmt.kept h hev₀
      exact ⟨ev₁, hev₁, hsame⟩
    · obtain ⟨ev₁, hev₁, hid₁, hsub₁⟩ := hs.handed p' ev hwas
      obtain ⟨ev₂, hev₂, hid₂, hsub₂⟩ := OutboxStmt.kept h hev₁
      exact ⟨ev₂, hev₂, hid₂.trans hid₁, hsub₂.trans hsub₁⟩
  · intro id p' t hlease ev' hev' hid hopen
    change t ≤ max ev'.available_at db'.clock
    rw [hclock]
    rcases mem_events_of_claim h hev' with ⟨hhanded, ev, -, rfl⟩ | ⟨hev, hnot⟩
    · rcases hlease with ⟨-, -, rfl⟩ | ⟨-, hlease⟩
      · exact le_max_left _ _
      · exact (hdue hhanded (hid ▸ hlease)).trans (le_max_right _ _)
    · rcases hlease with ⟨-, ⟨ev, hev', rfl⟩, -⟩ | ⟨-, hlease⟩
      · exact absurd hid.symm (hnot ev hev')
      · exact hs.leased id p' t hlease ev' hev hid hopen
  · intro id p' t hlease hlast
    change t ≤ db'.clock
    rw [hclock]
    by_cases hc : ∃ ev ∈ handed, ev.id = id
    · rcases hlease with ⟨rfl, hmem, -⟩ | ⟨-, hlease⟩
      · exact absurd (.inl ⟨rfl, hmem⟩) hlast
      · obtain ⟨ev, hev, rfl⟩ := hc
        exact hdue hev hlease
    · rcases hlease with ⟨-, hmem, -⟩ | ⟨-, hlease⟩
      · exact absurd hmem hc
      · exact hs.expired id p' t hlease fun hl => hlast (.inr ⟨hc, hl⟩)
  · intro ev' hev' hopen
    change ev'.available_at ≤ db'.clock + _
    rw [hclock]
    rcases mem_events_of_claim h hev' with ⟨-, ev, -, rfl⟩ | ⟨hev, -⟩
    · exact Nat.add_le_add_left (Nat.mul_le_mul_right _ hdelay) _
    · exact hs.bounded ev' hev hopen

/-- The last worker to have claimed an event may put it back: no other lease on it is unexpired. -/
theorem LeaseInv.reschedule (hs : LeaseInv s) {id₀ : Uuid} {error : String} {delay_seconds : ℕ}
    (hdelay : delay_seconds ≤ MAX_DELAY_SECONDS) (hlast : LastClaimed p id₀ s.log)
    (h : (OutboxStmt.reschedule id₀ error delay_seconds).run s.db = some (db', .ok ())) :
    LeaseInv ⟨db', ⟨p, r, s.db, .outbox (.reschedule id₀ error delay_seconds), .ok ()⟩ ::
      s.log⟩ := by
  have hclock : db'.clock = s.db.clock := by
    cases h
    rfl
  have hrow : ∀ ev' ∈ db'.outbox_events.rows, (ev'.id = id₀ ∧
      ev'.available_at = s.db.clock + seconds delay_seconds) ∨ ev' ∈ s.db.outbox_events.rows ∧
      ev'.id ≠ id₀ := by
    cases h
    intro ev' hev'
    obtain ⟨ev, hev, ⟨hsel, rfl⟩ | ⟨hsel, rfl⟩⟩ := Table.of_mem_updateWhere hev'
    · exact .inl ⟨beq_iff_eq.mp hsel, rfl⟩
    · exact .inr ⟨hev, beq_eq_false_iff_ne.mp hsel⟩
  refine ⟨⟨fun _ _ _ hc => hc.elim, hs.exclusive⟩, ?_, ?_, ?_, ?_⟩
  · intro p' ev hwas
    rcases wasHanded_cons.mp hwas with ⟨_, _, _, _, _, heq, -⟩ | hwas
    · cases heq
    · obtain ⟨ev₁, hev₁, hid₁, hsub₁⟩ := hs.handed p' ev hwas
      obtain ⟨ev₂, hev₂, hid₂, hsub₂⟩ := OutboxStmt.kept h hev₁
      exact ⟨ev₂, hev₂, hid₂.trans hid₁, hsub₂.trans hsub₁⟩
  · intro id p' t hlease ev' hev' hid hopen
    change t ≤ max ev'.available_at db'.clock
    rw [hclock]
    obtain ⟨hback, hlease⟩ := hlease.resolve_left not_false
    rcases hrow ev' hev' with ⟨hid₀, -⟩ | ⟨hev, -⟩
    · obtain rfl : id₀ = id := hid₀.symm.trans hid
      have hother : ¬ LastClaimed p' id₀ s.log := fun hl =>
        hback ⟨lastClaimed_unique hlast hl, rfl⟩
      exact (hs.expired id₀ p' t hlease hother).trans (le_max_right _ _)
    · exact hs.leased id p' t hlease ev' hev hid hopen
  · intro id p' t hlease hnot
    change t ≤ db'.clock
    rw [hclock]
    exact hs.expired id p' t (hlease.resolve_left not_false).2 fun hl => hnot (.inr ⟨not_false, hl⟩)
  · intro ev' hev' hopen
    change ev'.available_at ≤ db'.clock + _
    rw [hclock]
    rcases hrow ev' hev' with ⟨-, hdue⟩ | ⟨hev, -⟩
    · rw [hdue]
      exact Nat.add_le_add_left (Nat.mul_le_mul_right _ hdelay) _
    · exact hs.bounded ev' hev hopen

end Leases

/-! ### What every statement keeps -/

section Effect

variable {P : Platform} {p : ℕ} {r : Request} {q : Stmt} {x : Except Failure q.Reply} {c : Choice}
  {s s' : State} {db db' db₀ : Database} {ev : OutboxEvent} {log : List Event} {e : Event}

theorem DispatchEvidence.mono {log' : List Event} (h : DispatchEvidence p ev log)
    (hlog : ∀ e ∈ log, e ∈ log') : DispatchEvidence p ev log' where
  handed := by
    obtain ⟨r, db, limit, lease, events, he, hev⟩ := h.handed
    exact ⟨r, db, limit, lease, events, hlog _ he, hev⟩
  done := by
    rcases h.done with ⟨r, db, he, hgone⟩ | ⟨r, db, source, he, ⟨r₁, db₁, now, endpoints, he₁, r₂,
      db₂, n, he₂⟩, hemails⟩
    · exact .inl ⟨r, db, hlog _ he, hgone⟩
    · refine .inr ⟨r, db, source, hlog _ he, ⟨r₁, db₁, now, endpoints, hlog _ he₁, r₂, db₂, n,
        hlog _ he₂⟩, fun recipient hrecipient => ?_⟩
      obtain ⟨r₃, db₃, he₃⟩ := hemails recipient hrecipient
      exact ⟨r₃, db₃, hlog _ he₃⟩

/-- The statements of the three requests that are neither a claim nor a reschedule keep the events
apart from dispatching some, which needs evidence, and adding some, which takes a commit. -/
theorem eventsKept_of_pre (h : q.run P p c s.db = some (db', x)) (hpre : OutboxPre p s q)
    (hclaim : ∀ limit delay, q ≠ .outbox (.claim_due limit delay))
    (hback : ∀ id error delay, q ≠ .outbox (.reschedule id error delay)) :
    EventsKept s.db db' := by
  have hclock := Stmt.clock_eq h
  cases hreach : Part.outbox_events.reachedBy q with
  | false => exact .of_eq (Stmt.footprint .outbox_events hreach h) hclock
  | true =>
    cases q with
    | outbox q =>
      cases q with
      | claim_due limit delay => exact absurd rfl (hclaim limit delay)
      | reschedule id error delay => exact absurd rfl (hback id error delay)
      | mark_dispatched id =>
        have hrun : (OutboxStmt.mark_dispatched id).run s.db = some (db', x) := h
        refine ⟨hclock, fun ev hev => OutboxStmt.kept hrun hev, fun ev' hev' hopen => ?_⟩
        cases h
        obtain ⟨ev, hev, ⟨-, rfl⟩ | ⟨-, rfl⟩⟩ := Table.of_mem_updateWhere hev'
        · cases hopen
        · exact .inl ⟨ev', hev, rfl, hopen, rfl⟩
      | notification_source submission_id =>
        cases h
        exact .of_eq rfl rfl
    | commit writes =>
      cases h
      refine ⟨hclock, fun ev hev => ⟨ev, mem_applyAll_events_of_mem hev, rfl, rfl⟩,
        fun ev' hev' hopen => ?_⟩
      rcases mem_applyAll_events hev' with hev | ⟨hmem, hnew⟩
      · exact .inl ⟨ev', hev, rfl, hopen, rfl⟩
      · exact .inr ⟨hnew, (hpre.1 ev' hmem).2⟩
    | organizations q => cases q <;> first | exact hpre.elim | cases hreach
    | _ => cases hreach

/-- Every event of the three requests that is neither a claim nor a reschedule is quiet. -/
theorem quiet_of_ne (hclaim : ∀ limit delay, q ≠ .outbox (.claim_due limit delay))
    (hback : ∀ id error delay, q ≠ .outbox (.reschedule id error delay)) :
    Quiet ⟨p, r, db, q, x⟩ := by
  refine ⟨fun id h => ?_, fun p' id h => ?_⟩
  · unfold claimsEvent at h
    split at h
    · next heq =>
      cases heq
      exact hclaim _ _ rfl
    · exact h
  · unfold putsBack at h
    split at h
    · next heq =>
      cases heq
      exact hback _ _ _ rfl
    · exact h

theorem quiet_of_error {e : Failure} : Quiet ⟨p, r, db, q, .error e⟩ := by
  refine ⟨fun id h => ?_, fun p' id h => ?_⟩
  · unfold claimsEvent at h
    split at h
    · next heq => cases heq
    · exact h
  · unfold putsBack at h
    split at h
    · next heq => cases heq
    · exact h

/-- Every statement of the regime keeps the leases. There are two that matter: a claim, which
begins a lease, and a reschedule, which ends one and makes the event available at some other time.
All others leave `available_at` alone, and a failed statement changes nothing. -/
theorem LeaseInv.effect (hs : LeaseInv s) (hpre : OutboxPre p s q)
    (h : ownersReschedule.Effect (store P) p r q s x s') : LeaseInv s' := by
  cases h with
  | fail _ => exact hs.quiet quiet_of_error (.of_eq rfl rfl)
  | run hadmits hrun =>
    by_cases hclaim : ∃ limit delay, q = .outbox (.claim_due limit delay)
    · obtain ⟨limit, delay, rfl⟩ := hclaim
      obtain ⟨handed, rfl⟩ : ∃ handed, x = .ok handed := by
        cases hrun
        exact ⟨_, rfl⟩
      exact hs.claim hpre hrun
    by_cases hback : ∃ id error delay, q = .outbox (.reschedule id error delay)
    · obtain ⟨id, error, delay, rfl⟩ := hback
      obtain rfl : x = .ok () := by
        cases hrun
        rfl
      exact hs.reschedule hpre (not_not.mp hadmits.2) hrun
    have hclaim' : ∀ limit delay, q ≠ .outbox (.claim_due limit delay) :=
      fun limit delay heq => hclaim ⟨limit, delay, heq⟩
    have hback' : ∀ id error delay, q ≠ .outbox (.reschedule id error delay) :=
      fun id error delay heq => hback ⟨id, error, delay, heq⟩
    exact hs.quiet (quiet_of_ne hclaim' hback') (eventsKept_of_pre hrun hpre hclaim' hback')

/-- No statement of the three requests removes an event. -/
theorem exists_event_of_run (h : q.run P p c s.db = some (db', x)) (hpre : OutboxPre p s q)
    (hev : ev ∈ s.db.outbox_events.rows) :
    ∃ ev' ∈ db'.outbox_events.rows, ev'.id = ev.id ∧ ev'.submission_id = ev.submission_id := by
  by_cases hq : ∃ q', q = .outbox q'
  · obtain ⟨q', rfl⟩ := hq
    have hrun : q'.run s.db = some (db', x) := h
    exact OutboxStmt.kept hrun hev
  · exact (eventsKept_of_pre h hpre (fun limit delay heq => hq ⟨_, heq⟩)
      fun id error delay heq => hq ⟨_, heq⟩).kept ev hev

/-- Where a dispatched event comes from: it was dispatched before, or its worker says so. -/
theorem dispatched_origin (h : q.run P p c s.db = some (db', x)) (hpre : OutboxPre p s q)
    {ev' : OutboxEvent} (hev' : ev' ∈ db'.outbox_events.rows) (hdone : ev'.dispatched_at ≠ none) :
    ∃ ev ∈ s.db.outbox_events.rows, ev.id = ev'.id ∧ ev.submission_id = ev'.submission_id ∧
      (ev.dispatched_at ≠ none ∨ ∃ ev₁, ev₁.id = ev'.id ∧ DispatchEvidence p ev₁ s.log) := by
  have hsame : ev' ∈ s.db.outbox_events.rows → ∃ ev ∈ s.db.outbox_events.rows, ev.id = ev'.id ∧
      ev.submission_id = ev'.submission_id ∧
      (ev.dispatched_at ≠ none ∨ ∃ ev₁, ev₁.id = ev'.id ∧ DispatchEvidence p ev₁ s.log) :=
    fun hev => ⟨ev', hev, rfl, rfl, .inl hdone⟩
  cases hreach : Part.outbox_events.reachedBy q with
  | false =>
    have heq : db'.outbox_events = s.db.outbox_events := Stmt.footprint .outbox_events hreach h
    exact hsame (heq ▸ hev')
  | true =>
    cases q with
    | outbox q =>
      cases q with
      | claim_due _ _ | reschedule _ _ _ =>
        cases h
        obtain ⟨ev, hev, ⟨-, rfl⟩ | ⟨-, rfl⟩⟩ := Table.of_mem_updateWhere hev'
        · exact ⟨ev, hev, rfl, rfl, .inl hdone⟩
        · exact hsame hev
      | mark_dispatched id =>
        cases h
        obtain ⟨ev, hev, ⟨hsel, rfl⟩ | ⟨-, rfl⟩⟩ := Table.of_mem_updateWhere hev'
        · obtain ⟨ev₁, hid₁, hevidence⟩ := hpre
          exact ⟨ev, hev, rfl, rfl, .inr ⟨ev₁, hid₁.trans (beq_iff_eq.mp hsel).symm, hevidence⟩⟩
        · exact hsame hev
      | notification_source submission_id =>
        cases h
        exact hsame hev'
    | commit writes =>
      cases h
      rcases mem_applyAll_events hev' with hev | ⟨hmem, -⟩
      · exact hsame hev
      · exact absurd (hpre.1 ev' hmem).1 hdone
    | organizations q => cases q <;> first | exact hpre.elim | cases hreach
    | _ => cases hreach

/-- The forms are left alone, and new submissions take a commit. -/
theorem forms_of_pre (h : q.run P p c s.db = some (db', x)) (hpre : OutboxPre p s q) :
    db'.forms = s.db.forms ∧ ∀ row ∈ db'.submissions.rows, row ∈ s.db.submissions.rows ∨
      s.db.forms.hasKey row.form_id = true := by
  have hforms : db'.forms = s.db.forms := by
    cases q with
    | forms q =>
      cases q <;> try exact hpre.elim
      cases h
      rfl
    | organizations q => cases q <;> first | exact hpre.elim | exact Stmt.footprint .forms rfl h
    | _ => exact Stmt.footprint .forms rfl h
  refine ⟨hforms, fun row hrow => ?_⟩
  cases hreach : Part.submissions.reachedBy q with
  | false =>
    have hsame : db'.submissions = s.db.submissions := Stmt.footprint .submissions hreach h
    exact .inl (hsame ▸ hrow)
  | true =>
    cases q with
    | commit writes =>
      cases h
      exact (mem_applyAll_submissions hrow).imp_right fun hws => hpre.2 row hws.1
    | submissions q =>
      cases q with
      | delete organization_id id =>
        simp only [Stmt.run, SubmissionStmt.run] at h
        (repeat' split at h) <;> cases h
        · exact .inl hrow
        · exact .inl (Table.mem_deleteWhere.mp hrow).1
      | insert submission now =>
        simp only [Stmt.run, SubmissionStmt.run] at h
        (repeat' split at h) <;> cases h <;> exact .inl hrow
      | find _ _ | page_after _ _ _ | distinct_answer_keys _ | set_status _ _ _ => exact hpre.elim
    | forms q | organizations q => cases q <;> first | exact hpre.elim | cases hreach
    | _ => cases hreach

/-- A fan-out is the only statement of the three requests that makes a delivery. -/
theorem OneDelivery.of_run (hdb : OneDelivery s.db) (h : q.run P p c s.db = some (db', x))
    (hpre : OutboxPre p s q) : OneDelivery db' := by
  by_cases hq : ∃ q', q = .webhooks q'
  · obtain ⟨q', rfl⟩ := hq
    cases q' with
    | fan_out_scan organization_id form_id =>
      cases h
      exact hdb
    | fan_out_insert organization_id submission_id payload endpoints =>
      simp only [Stmt.run, WebhookStmt.run] at h
      (repeat' split at h) <;> cases h
      · exact hdb
      · exact hdb
      · exact hdb
      · exact hdb.insertDeliveries organization_id submission_id payload endpoints c.id
    | create_endpoint _ _ _ _ _ | find_endpoint _ _ | set_endpoint_secret _ _ _
    | update_endpoint _ _ _ | delete_endpoint _ _ | form_belongs_to _ _ | claim_due_deliveries _ _
    | mark_delivered _ _ | record_attempt_failure _ _ _ _ _ | find_delivery _ _
    | requeue_delivery _ _ =>
      exact hpre.elim
  · exact hdb.of_from (Stmt.deliveries_from (fun q' hq' => hq ⟨q', hq'⟩) h)

/-- An event is owed because it was before, or because this is the commit that writes it. -/
theorem owed_cons (h : Owed db₀ (e :: log) ev) :
    Owed db₀ log ev ∨ ∃ p r db writes,
      e = ⟨p, r, db, .commit writes, .ok ()⟩ ∧ Write.outbox_event ev ∈ writes := by
  rcases h with h | ⟨p, r, db, writes, he, hmem⟩
  · exact .inl (.inl h)
  · rcases List.mem_cons.mp he with rfl | he
    · exact .inr ⟨p, r, db, writes, rfl, hmem⟩
    · exact .inl (.inr ⟨p, r, db, writes, he, hmem⟩)

/-- The evidence survives what is added to the trace. -/
theorem SettleInv.dispatched_mono (hs : SettleInv db₀ s) (hev : ev ∈ s.db.outbox_events.rows)
    (hdone : ev.dispatched_at ≠ none) :
    (∃ ev₀ ∈ db₀.outbox_events.rows, ev₀.id = ev.id ∧ ev₀.dispatched_at ≠ none) ∨
    ∃ p ev', ev'.id = ev.id ∧ ev'.submission_id = ev.submission_id ∧
      DispatchEvidence p ev' (e :: s.log) := by
  refine (hs.dispatched ev hev hdone).imp_right ?_
  rintro ⟨p, ev', hid, hsub, hevidence⟩
  exact ⟨p, ev', hid, hsub, hevidence.mono fun _ he => List.mem_cons_of_mem _ he⟩

/-- Every statement of the regime keeps the rest. An event is owed because of a commit and is in
the table from then on; it is dispatched on evidence, which is a precondition of the statement
that says so; and a fan-out leaves out the endpoints that have a delivery already. -/
theorem SettleInv.effect (hs : SettleInv db₀ s) (hl : LeaseInv s) (hpre : OutboxPre p s q)
    (h : ownersReschedule.Effect (store P) p r q s x s') : SettleInv db₀ s' := by
  cases h with
  | fail _ =>
    refine ⟨fun ev howed => ?_, fun ev hev hdone => hs.dispatched_mono hev hdone,
      hs.one_delivery, hs.form⟩
    rcases owed_cons howed with howed | ⟨_, _, _, _, heq, -⟩
    · exact hs.kept ev howed
    · cases heq
  | run hadmits hrun =>
    obtain ⟨hforms, hsubmissions⟩ := forms_of_pre hrun hpre
    refine ⟨fun ev howed => ?_, fun ev' hev' hdone => ?_, hs.one_delivery.of_run hrun hpre,
      fun row hrow => ?_⟩
    · rcases owed_cons howed with howed | ⟨_, _, _, writes, heq, hmem⟩
      · obtain ⟨ev₁, hev₁, hid₁⟩ := hs.kept ev howed
        obtain ⟨ev₂, hev₂, hid₂, -⟩ := exists_event_of_run hrun hpre hev₁
        exact ⟨ev₂, hev₂, hid₂.trans hid₁⟩
      · cases heq
        cases hrun
        exact exists_event_applyAll hmem
    · obtain ⟨ev, hev, hid, hsub, hdone | ⟨ev₁, hid₁, hevidence⟩⟩ :=
        dispatched_origin hrun hpre hev' hdone
      · rw [← hid, ← hsub]
        exact hs.dispatched_mono hev hdone
      · -- The worker was handed this event, so it looked for the event's submission.
        obtain ⟨ev₂, hev₂, hid₂, hsub₂⟩ := hl.handed p ev₁ hevidence.handed
        obtain rfl := Table.eq_of_key_eq _ hev₂ hev (hid₂.trans (hid₁.trans hid.symm))
        exact .inr ⟨p, ev₁, hid₁, hsub₂.symm.trans hsub,
          hevidence.mono fun _ he => List.mem_cons_of_mem _ he⟩
    · rw [Shared.push_db, hforms]
      exact (hsubmissions row hrow).elim (hs.form row) id

theorem OutboxInv.effect (hs : OutboxInv db₀ s) (hpre : OutboxPre p s q)
    (h : ownersReschedule.Effect (store P) p r q s x s') : OutboxInv db₀ s' :=
  ⟨hs.leases.effect hpre h, hs.settles.effect hs.leases hpre h⟩

/-- Neither time nor the end of a transaction touches the outbox. -/
theorem OutboxInv.of_same (hs : OutboxInv db₀ s) (hevents : db'.outbox_events = s.db.outbox_events)
    (hforms : db'.forms = s.db.forms) (hsubmissions : db'.submissions = s.db.submissions)
    (hdeliveries : db'.webhook_deliveries = s.db.webhook_deliveries)
    (hclock : s.db.clock ≤ db'.clock) : OutboxInv db₀ { s with db := db' } where
  leases := {
    exclusive := hs.leases.exclusive
    handed := by
      rw [hevents]
      exact hs.leases.handed
    leased := by
      intro id p t hlease ev hev hid hopen
      refine (hs.leases.leased id p t hlease ev (hevents ▸ hev) hid hopen).trans ?_
      exact max_le (le_max_left _ _) (hclock.trans (le_max_right _ _))
    expired := fun id p t hlease hlast => (hs.leases.expired id p t hlease hlast).trans hclock
    bounded := fun ev hev hopen => (hs.leases.bounded ev (hevents ▸ hev) hopen).trans
      (Nat.add_le_add_right hclock _) }
  settles := {
    kept := by
      rw [hevents]
      exact hs.settles.kept
    dispatched := by
      rw [hevents]
      exact hs.settles.dispatched
    one_delivery := by
      unfold OneDelivery
      rw [hdeliveries]
      exact hs.settles.one_delivery
    form := by
      rw [hforms, hsubmissions]
      exact hs.settles.form }

theorem forms_of_effect (hpre : OutboxPre p s q)
    (h : ownersReschedule.Effect (store P) p r q s x s') : s'.db.forms = s.db.forms := by
  cases h with
  | fail _ => rfl
  | run _ hrun => exact (forms_of_pre hrun hpre).1

end Effect

/-- The logic of the outbox: time only passes, and nobody touches the forms. A worker relies on
the clock for what it writes into `available_at`, and a submission on its form to be there until
it commits. -/
def outboxLogic (P : Platform) (db₀ : Database) : Logic ownersReschedule (store P) where
  inv := OutboxInv db₀
  rely _ s s' := s.db.clock ≤ s'.db.clock ∧ s'.db.forms = s.db.forms
  pre p _ q s := OutboxPre p s q
  rely_refl _ _ := ⟨le_rfl, rfl⟩
  rely_trans h h' := ⟨h.1.trans h'.1, h'.2.trans h.2⟩
  sound hs hpre h := ⟨hs.effect hpre h, fun _ _ => ⟨(clock_of_effect h).ge, forms_of_effect hpre h⟩⟩
  stop_sound _ hs := ⟨hs.of_same rfl rfl rfl rfl le_rfl, fun _ _ => ⟨le_rfl, rfl⟩⟩
  pass_sound hs := ⟨hs.of_same rfl rfl rfl rfl (Nat.le_add_right _ _),
    fun _ => ⟨Nat.le_add_right _ _, rfl⟩⟩

/-! ### The scripts -/

/-- Statements that may be executed at any time. -/
def OutboxFree (q : Stmt) : Prop := ∀ p s, OutboxPre p s q

section Scripts

variable {d : Deployment} {db₀ : Database} {p : ℕ} {r : Request} {s s' : State} {ε α : Type}

theorem wp_of_outboxFree {x : Code ε α} (hx : x.Issues OutboxFree) (s : State) :
    (outboxLogic d.platform db₀).wp p r x (fun _ _ => True) s :=
  Logic.wp_of_does OutboxFree (fun _ _ => True) (fun _ => True) (fun _ => True)
    (fun _ _ => trivial) (fun hq _ _ => hq _ _) (fun _ _ _ _ _ => ⟨trivial, trivial⟩)
    (fun _ _ => trivial) hx.does trivial

theorem delete_submission_free (organization_id submission_id actor_id : Uuid) :
    (FormService.delete_submission organization_id submission_id actor_id).Issues OutboxFree := by
  have haccess : (FormService.manager_access organization_id actor_id).Issues OutboxFree :=
    FormService.manager_access_issues fun _ _ => trivial
  refine haccess.bind fun _ => (Script.issues_query fun _ _ => trivial).bind fun found => ?_
  split <;> trivial

/-! #### Submissions

A submission adds its event in the commit that stores it. The event was made by the insert, with
the time of the transaction, so it is due when it appears. -/

/-- A transaction whose body, told the time, keeps to its preconditions. -/
theorem wp_transaction_outbox [Raises Failure ε] {body : Timestamp → Code ε α}
    (hs : OutboxInv db₀ s)
    (hbody : ∀ now s', OutboxInv db₀ s' → now ≤ s'.db.clock →
      (outboxLogic d.platform db₀).wp p r (body now) (fun _ _ => True) s') :
    (outboxLogic d.platform db₀).wp p r (transaction body) (fun _ _ => True) s := by
  refine Logic.wp_ensuring hs (Logic.wp_mono (?_ : Logic.wp _ _ _ _ (fun _ _ => True) _) ?_)
  · refine Logic.wp_query_bind fun s₁ _ => ⟨trivial, fun now s₂ hx hs₂ => hbody now s₂ hs₂ ?_,
      fun _ _ _ _ _ _ => trivial⟩
    obtain ⟨-, c, db, hrun, rfl⟩ := hx.of_ok
    cases hrun
    exact le_rfl
  · exact fun _ _ _ _ _ _ => ⟨trivial, fun _ _ _ _ _ _ => trivial⟩

/-- An insert answers with a row of a form that exists and an event that is due at `now`. -/
theorem insert_answers {n : NewSubmission} {now : Timestamp} {row : SubmissionRecord}
    {event : Option OutboxEvent}
    (h : ownersReschedule.Effect (store d.platform) p r (.submissions (.insert n now)) s
      (.ok (row, event)) s') :
    s'.db.forms.hasKey row.form_id = true ∧
      ∀ ev, event = some ev → ev.dispatched_at = none ∧ ev.available_at = now := by
  obtain ⟨-, c, db, hrun, rfl⟩ := h.of_ok
  simp only [store, Stmt.run, SubmissionStmt.run] at hrun
  split at hrun
  · cases hrun
  split at hrun
  · split at hrun
    · cases hrun
    split at hrun
    · cases hrun
    next hforms =>
      cases hrun
      refine ⟨(by simpa using hforms : s.db.forms.hasKey n.form_id = true), fun ev hev => ?_⟩
      split at hev <;> cases hev
      exact ⟨rfl, rfl⟩
  · cases hrun

/-- A commit of what an insert answered, and of claims, may be executed as long as time only passes
and the forms stay. -/
theorem writesOpen_of_insert {db db' : Database} {now : Timestamp} {row : SubmissionRecord}
    {event : Option OutboxEvent} {claims : List Write} (hrow : db.forms.hasKey row.form_id = true)
    (hevent : ∀ ev, event = some ev → ev.dispatched_at = none ∧ ev.available_at = now)
    (hnow : now ≤ db.clock) (hrely : db.clock ≤ db'.clock ∧ db'.forms = db.forms)
    (hclaims : ∀ w ∈ claims, ∃ ids id, w = .claim_uploads ids id) :
    WritesOpen db' (FormService.submission_writes row event ++ claims) := by
  refine ⟨fun ev hmem => ?_, fun row' hmem => ?_⟩
  · rcases List.mem_append.mp hmem with hmem | hmem
    · obtain ⟨ev', hev', heq⟩ := List.mem_map.mp ((List.mem_cons.mp hmem).resolve_left nofun)
      cases heq
      obtain ⟨hopen, rfl⟩ := hevent ev (Option.mem_toList.mp hev')
      exact ⟨hopen, hnow.trans hrely.1⟩
    · obtain ⟨_, _, heq⟩ := hclaims _ hmem
      cases heq
  · rcases List.mem_append.mp hmem with hmem | hmem
    · rcases List.mem_cons.mp hmem with heq | hmem
      · cases heq
        rwa [hrely.2]
      · obtain ⟨_, _, heq⟩ := List.mem_map.mp hmem
        cases heq
    · obtain ⟨_, _, heq⟩ := hclaims _ hmem
      cases heq

/-- The insert of a submission and what a transaction does with its answer. -/
theorem wp_insert {n : NewSubmission} {now : Timestamp} (hnow : now ≤ s.db.clock)
    {rest : SubmissionRecord × Option OutboxEvent → Code FormError Uuid}
    (hrest : ∀ row event s', OutboxInv db₀ s' → s'.db.forms.hasKey row.form_id = true →
      (∀ ev, event = some ev → ev.dispatched_at = none ∧ ev.available_at = now) →
      now ≤ s'.db.clock →
      (outboxLogic d.platform db₀).wp p r (rest (row, event)) (fun _ _ => True) s') :
    (outboxLogic d.platform db₀).wp p r (ask (.submissions (.insert n now)) >>= rest)
      (fun _ _ => True) s := by
  refine Logic.wp_query_bind fun s₁ he => ⟨trivial, fun a s₂ hx hs₂ => ?_,
    fun _ _ _ _ _ _ => trivial⟩
  obtain ⟨row, event⟩ := a
  obtain ⟨hrow, hevent⟩ := insert_answers hx
  exact hrest row event s₂ hs₂ hrow hevent
    ((hnow.trans he.rely.1).trans (clock_of_effect hx).ge)

theorem wp_insert_submission (hs : OutboxInv db₀ s) (n : NewSubmission) :
    (outboxLogic d.platform db₀).wp p r (FormService.insert_submission n) (fun _ _ => True) s := by
  refine wp_transaction_outbox hs fun now s₁ hs₁ hnow => wp_insert hnow
    fun row event s₂ hs₂ hrow hevent hnow => ?_
  refine Logic.wp_query_bind fun s₃ he =>
    ⟨?_, fun _ _ _ _ _ _ => trivial, fun _ _ _ _ _ _ => trivial⟩
  have hwrites : WritesOpen s₃.db (FormService.submission_writes row event ++ []) :=
    writesOpen_of_insert hrow hevent hnow he.rely (by simp)
  rwa [List.append_nil] at hwrites

theorem wp_insert_claiming_files (hs : OutboxInv db₀ s) (n : NewSubmission)
    (answers : List (String × String)) :
    (outboxLogic d.platform db₀).wp p r (FormService.insert_claiming_files n answers)
      (fun _ _ => True) s := by
  refine wp_transaction_outbox hs fun now s₁ hs₁ hnow => ?_
  refine Logic.wp_query_bind fun s₂ he => ⟨trivial, fun recorded s₃ hx hs₃ => ?_,
    fun _ _ _ _ _ _ => trivial⟩
  have hnow₃ : now ≤ s₃.db.clock := (hnow.trans he.rely.1).trans (clock_of_effect hx).ge
  cases check_file_references recorded answers with
  | error e => exact fun _ _ => trivial
  | ok metadata =>
    refine wp_insert hnow₃ fun row event s₄ hs₄ hrow hevent hnow₄ => ?_
    refine Logic.wp_query_bind fun s₅ he₅ => ⟨trivial, fun claimed s₆ hx₆ hs₆ => ?_,
      fun _ _ _ _ _ _ => trivial⟩
    split
    · exact fun _ _ => trivial
    · have hclaim : OutboxPre p s₅ (.uploads (.claim (answers.map (·.2)))) := trivial
      have hrely : s₄.db.clock ≤ s₆.db.clock ∧ s₆.db.forms = s₄.db.forms :=
        ⟨he₅.rely.1.trans (clock_of_effect hx₆).ge, (forms_of_effect hclaim hx₆).trans he₅.rely.2⟩
      refine Logic.wp_query_bind fun s₇ he₇ => ⟨?_, fun _ _ _ _ _ _ => trivial,
        fun _ _ _ _ _ _ => trivial⟩
      exact writesOpen_of_insert hrow hevent hnow₄
        ⟨hrely.1.trans he₇.rely.1, he₇.rely.2.trans hrely.2⟩ (by simp)

theorem wp_submit_outbox (hs : OutboxInv db₀ s) (public_id : String) (payload : Map)
    (client : ClientInfo) (referer : Option String) :
    (outboxLogic d.platform db₀).wp p r (FormService.submit d public_id payload client referer)
      (fun _ _ => True) s := by
  have hload : (FormService.load_published public_id).Issues OutboxFree :=
    FormService.load_published_issues fun _ _ => trivial
  refine Logic.wp_bind hs (wp_of_outboxFree hload s) (fun form s₁ hs₁ _ => ?_)
    fun _ _ _ _ => trivial
  refine Logic.wp_query_bind fun s₂ _ => ⟨trivial, fun allowed s₃ _ hs₃ => ?_,
    fun _ _ _ _ _ _ => trivial⟩
  split
  · exact fun _ _ => trivial
  · split
    · exact fun _ _ => trivial
    · dsimp only
      split
      · exact Logic.wp_bind hs₃ (wp_insert_submission hs₃ _) (fun _ _ _ _ _ _ => trivial)
          fun _ _ _ _ => trivial
      · exact Logic.wp_bind hs₃ (wp_insert_claiming_files hs₃ _ _) (fun _ _ _ _ _ _ => trivial)
          fun _ _ _ _ => trivial

/-! #### Workers

The evidence is collected on the way: what was handed out, what was read, and then one fact for
each of the calls that succeeded. If one fails there is no evidence, and the event is put back. -/

/-- The script's steps only add to the trace. -/
theorem WasHanded.mono {ev : OutboxEvent} {log log' : List Event} (h : WasHanded p ev log)
    (hlog : ∀ e ∈ log, e ∈ log') : WasHanded p ev log' := by
  obtain ⟨r, db, limit, lease, events, he, hev⟩ := h
  exact ⟨r, db, limit, lease, events, hlog _ he, hev⟩

/-- Worker `p` has read the source of the event and completed the fan-out for it. -/
def FannedOut (p : ℕ) (ev : OutboxEvent) (source : NotificationSource) (log : List Event) : Prop :=
  (∃ r db, ⟨p, r, db, .outbox (.notification_source ev.submission_id), .ok (some source)⟩ ∈ log) ∧
    (∃ r db now endpoints, ⟨p, r, db, .webhooks (.fan_out_scan source.organization_id
      source.form_id), .ok (now, endpoints)⟩ ∈ log ∧
      ∃ r db n, ⟨p, r, db, .webhooks (.fan_out_insert source.organization_id source.submission_id
        (webhook_payload source) endpoints), .ok n⟩ ∈ log)

theorem FannedOut.mono {ev : OutboxEvent} {source : NotificationSource} {log log' : List Event}
    (h : FannedOut p ev source log) (hlog : ∀ e ∈ log, e ∈ log') :
    FannedOut p ev source log' := by
  obtain ⟨⟨r, db, he⟩, r₁, db₁, now, endpoints, he₁, r₂, db₂, n, he₂⟩ := h
  exact ⟨⟨r, db, hlog _ he⟩, r₁, db₁, now, endpoints, hlog _ he₁, r₂, db₂, n, hlog _ he₂⟩

/-- The email for `recipient` has been enqueued by `p`. -/
def Emailed (p : ℕ) (source : NotificationSource) (recipient : String) (log : List Event) : Prop :=
  ∃ r db, ⟨p, r, db, .enqueue (notification_email source recipient), .ok ()⟩ ∈ log

/-- The loop over the addresses enqueues an email for each of them. -/
theorem wp_enqueue_emails (hs : OutboxInv db₀ s) (source : NotificationSource) :
    (outboxLogic d.platform db₀).wp p r (Dispatcher.enqueue_emails source)
      (fun y s' => y = .ok () → ∀ recipient ∈ source.notify_emails,
        Emailed p source recipient s'.log) s := by
  -- What is left to do, and what has been done.
  refine Logic.wp_forEach (fun rest s' => ∀ recipient ∈ source.notify_emails,
    recipient ∈ rest ∨ Emailed p source recipient s'.log) ?_ ?_ source.notify_emails s hs
    fun _ hmem => .inl hmem
  · rintro recipient rest s₁ hs₁ hdone
    refine Logic.wp_query_bind fun s₂ he => ⟨trivial, fun _ s₃ hx _ => ?_,
      fun _ _ _ _ _ _ => nofun⟩
    refine Logic.wp_query fun s₄ he₄ => ⟨trivial, fun _ s₅ hx₅ _ s₆ he₆ => ?_,
      fun _ _ _ _ _ _ => nofun⟩
    have hlater : ∀ e ∈ s₃.log, e ∈ s₆.log := fun _ he' =>
      he₆.others.mem (hx₅.mem (he₄.others.mem he'))
    intro recipient' hmem
    rcases hdone recipient' hmem with hrest | ⟨r', db', he'⟩
    · rcases List.mem_cons.mp hrest with rfl | hrest
      · exact .inr ⟨_, _, hlater _ hx.mem_self⟩
      · exact .inl hrest
    · exact .inr ⟨r', db', hlater _ (hx.mem (he.others.mem he'))⟩
  · rintro s₁ s₂ hdone he - recipient hmem
    obtain ⟨r', db', he'⟩ := (hdone recipient hmem).resolve_left List.not_mem_nil
    exact ⟨r', db', he.others.mem he'⟩

/-- A join that finds nothing has missed the submission. -/
theorem submission_gone {submission_id : Uuid} (hs : OutboxInv db₀ s)
    (h : ownersReschedule.Effect (store d.platform) p r
      (.outbox (.notification_source submission_id))
      s (.ok none) s') : s.db.submissions.hasKey submission_id = false := by
  obtain ⟨-, c, db, hrun, rfl⟩ := h.of_ok
  simp only [store, Stmt.run, OutboxStmt.run, Option.some.injEq, Prod.mk.injEq,
    Except.ok.injEq] at hrun
  rw [Table.hasKey_eq_false]
  intro row hrow hid
  have hfind : s.db.submissions.find? submission_id = some row :=
    Table.find?_eq_some.mpr ⟨hrow, hid⟩
  obtain ⟨form, hform, hform_id⟩ := Table.hasKey_iff.mp (hs.settles.form row hrow)
  have hfound : s.db.forms.find? row.form_id = some form :=
    Table.find?_eq_some.mpr ⟨hform, hform_id⟩
  rw [hfind, Option.bind_eq_bind, Option.bind_some, hfound] at hrun
  exact absurd hrun.2 (Option.some_ne_none _)

/-- Dispatching an event that `p` was handed leaves the evidence. -/
theorem wp_dispatch_submission {ev : OutboxEvent}
    (hhanded : WasHanded p ev s.log) :
    (outboxLogic d.platform db₀).wp p r (Dispatcher.dispatch_submission ev)
      (fun y s' => y = .ok () → DispatchEvidence p ev s'.log) s := by
  refine Logic.wp_query_bind fun s₁ he => ⟨trivial, fun found s₂ hx hs₂ => ?_,
    fun _ _ _ _ _ _ => nofun⟩
  have hhanded₂ : WasHanded p ev s₂.log := hhanded.mono fun _ hmem => hx.mem (he.others.mem hmem)
  cases found with
  | none =>
    rintro s₃ he₃ -
    refine ⟨hhanded₂.mono fun _ => he₃.others.mem, .inl ⟨_, _, he₃.others.mem hx.mem_self, ?_⟩⟩
    exact submission_gone he.inv hx
  | some source =>
    have hfan : (outboxLogic d.platform db₀).wp p r (WebhookService.enqueue_deliveries
        source.organization_id source.form_id source.submission_id (webhook_payload source) :
          Code Failure ℕ)
        (fun y s' => (∃ n, y = .ok n) → WasHanded p ev s'.log ∧ FannedOut p ev source s'.log)
        s₂ := by
      refine Logic.wp_query_bind fun s₃ he₃ => ⟨trivial, fun found s₄ hx₄ hs₄ => ?_,
        fun _ _ _ _ _ _ => nofun⟩
      obtain ⟨now, endpoints⟩ := found
      refine Logic.wp_query fun s₅ he₅ => ⟨trivial, fun n s₆ hx₆ _ s₇ he₇ _ => ?_,
        fun _ _ _ _ _ _ => nofun⟩
      have hlog : ∀ e ∈ s₄.log, e ∈ s₇.log := fun e hmem =>
        he₇.others.mem (hx₆.mem (he₅.others.mem hmem))
      have hlog' : ∀ e ∈ s₂.log, e ∈ s₇.log := fun e hmem => hlog e (hx₄.mem (he₃.others.mem hmem))
      exact ⟨hhanded₂.mono hlog', ⟨_, _, hlog' _ hx.mem_self⟩, _, _, now, endpoints,
        hlog _ hx₄.mem_self, _, _, n, he₇.others.mem hx₆.mem_self⟩
    refine Logic.wp_bind hs₂ hfan (fun n s₃ hs₃ hdone => ?_) fun _ _ _ _ => nofun
    refine Logic.wp_mono (Logic.wp_grows (wp_enqueue_emails hs₃ source) fun _ hmem => hmem) ?_
    rintro y s₄ - ⟨hemails, hlog⟩ hy
    obtain ⟨hwas, ⟨r', db', hsource⟩, hfan⟩ := hdone ⟨n, rfl⟩
    exact ⟨hwas.mono hlog, .inr ⟨r', db', source, hlog _ hsource,
      (FannedOut.mono ⟨⟨r', db', hsource⟩, hfan⟩ hlog).2, hemails hy⟩⟩

/-- No delay between two attempts is longer than an hour. -/
theorem outbox_backoff_le (attempts : ℕ) : outbox_backoff_seconds attempts ≤ MAX_DELAY_SECONDS := by
  unfold outbox_backoff_seconds
  split <;> decide

/-- An event of the batch is settled on evidence, or put back. -/
theorem wp_settle (hs : OutboxInv db₀ s) {ev : OutboxEvent} (hhanded : WasHanded p ev s.log) :
    (outboxLogic d.platform db₀).wp p r (Dispatcher.settle d ev) (fun _ _ => True) s := by
  have hdispatch : (outboxLogic d.platform db₀).wp p r
      (result (Dispatcher.dispatch_submission ev) : Code Failure (Except Failure Unit))
      (fun y s' => y = .ok (.ok ()) → DispatchEvidence p ev s'.log) s :=
    Logic.wp_result (Logic.wp_mono (wp_dispatch_submission hhanded) fun _ _ _ h hy =>
      h (Except.ok.inj hy))
  refine Logic.wp_bind hs hdispatch (fun outcome s₁ hs₁ hdone => ?_) fun _ _ _ _ => trivial
  cases outcome with
  | ok _ =>
    refine Logic.wp_query fun s₂ he => ⟨⟨ev, rfl, ?_⟩, fun _ _ _ _ _ _ => trivial,
      fun _ _ _ _ _ _ => trivial⟩
    exact (hdone rfl).mono fun _ => he.others.mem
  | error e =>
    exact Logic.wp_query fun s₂ _ => ⟨outbox_backoff_le ev.attempts, fun _ _ _ _ _ _ => trivial,
      fun _ _ _ _ _ _ => trivial⟩

theorem wp_run_once_outbox (s : State) :
    (outboxLogic d.platform db₀).wp p r (Dispatcher.run_once d) (fun _ _ => True) s := by
  have hlease : CLAIM_LEASE_SECONDS ≤ MAX_DELAY_SECONDS := by decide
  refine Logic.wp_query_bind fun s₁ _ => ⟨hlease, fun events s₂ hx hs₂ => ?_,
    fun _ _ _ _ _ _ => trivial⟩
  -- The rest of the batch is still the worker's own.
  refine Logic.wp_forEach (fun rest s' => ∀ ev ∈ rest, WasHanded p ev s'.log) ?_
    (fun _ _ _ _ => trivial) events s₂ hs₂ fun ev hev => ⟨_, _, _, _, _, hx.mem_self, hev⟩
  intro ev rest s₃ hs₃ hrest
  refine Logic.wp_mono (Logic.wp_grows (wp_settle hs₃ (hrest ev List.mem_cons_self))
    fun _ hmem => hmem) fun y s₄ _ h => ?_
  cases y with
  | ok _ => exact fun ev' hev' => (hrest ev' (List.mem_cons_of_mem _ hev')).mono h.2
  | error _ => trivial

end Scripts

/-! ### Every run -/

/-- A database as the service and its constraints leave it: an open event is due within an hour, an
endpoint has one delivery of a submission, and a submission has its form. -/
structure OutboxWellFormed (db : Database) : Prop where
  bounded : ∀ ev ∈ db.outbox_events.rows, ev.dispatched_at = none →
    ev.available_at ≤ db.clock + seconds MAX_DELAY_SECONDS
  one_delivery : OneDelivery db
  form : ∀ row ∈ db.submissions.rows, db.forms.hasKey row.form_id = true

variable {d : Deployment} {db : Database} {w : World}

theorem OutboxInv.start (hdb : OutboxWellFormed db) : OutboxInv db (World.start db).shared where
  leases := {
    exclusive := trivial
    handed := fun _ _ ⟨_, _, _, _, _, he, _⟩ => absurd he List.not_mem_nil
    leased := fun _ _ _ h => absurd h since_nil
    expired := fun _ _ _ h => absurd h since_nil
    bounded := hdb.bounded }
  settles := {
    kept := by
      rintro ev (hev | ⟨_, _, _, _, he, _⟩)
      · exact ⟨ev, hev, rfl⟩
      · exact absurd he List.not_mem_nil
    dispatched := fun ev hev hdone => .inl ⟨ev, hev, rfl, hdone⟩
    one_delivery := hdb.one_delivery
    form := hdb.form }

/-- **At least once, and one lease at a time**, in every run in which an event is only put back by
the worker that has claimed it last. -/
theorem dispatchSound_of_reaches (hdb : OutboxWellFormed db)
    (h : Reaches d ownersReschedule (World.start db) w) : DispatchSound db w.shared := by
  have hspec : ∀ p r s, ownersReschedule.spawns r → OutboxInv db s → (∀ e ∈ s.log, e.pid ≠ p) →
      (outboxLogic d.platform db).wp p r (Request.code d r) (fun _ _ => True) s := by
    intro p r s hr hs _
    cases r with
    | submit public_id payload client referer =>
      exact wp_submit_outbox hs public_id payload client referer
    | delete_submission organization_id submission_id actor_id =>
      exact wp_of_outboxFree (delete_submission_free organization_id submission_id actor_id) s
    | dispatch_outbox => exact wp_run_once_outbox s
    | _ => exact hr.elim
  have hsafe : (outboxLogic d.platform db).Safe (fun _ _ _ _ => True) w :=
    Logic.safe_of_reaches hspec (.start (OutboxInv.start hdb)) h
  exact hsafe.inv.sound

/-! ### A lease that is taken away

A slow worker puts the event back two minutes late. By then it is somebody else's, who now has to
share it with a third. -/

instance (id : Uuid) : DecidablePred (claimsEvent id) := fun e => by
  delta claimsEvent
  split <;> infer_instance

instance (p : ℕ) (id : Uuid) (t : Timestamp) : DecidablePred (leasesEvent p id t) := fun e => by
  delta leasesEvent
  split <;> infer_instance

instance (p : ℕ) (id : Uuid) : DecidablePred (putsBack p id) := fun e => by
  delta putsBack
  split <;> infer_instance

instance (p : ℕ) (log : List Event) : DecidablePred (reschedulesStale p log) := fun q => by
  delta reschedulesStale
  split <;> infer_instance

instance : DecidablePred Request.touchesOutbox := fun r => by
  induction r using Request.casesOn <;> (delta Request.touchesOutbox; infer_instance)

/-- The last event hands out `id` while `p` holds a lease on it until `t`. -/
def Steals (p : ℕ) (id : Uuid) (t : Timestamp) : List Event → Prop
  | [] => False
  | e :: log => claimsEvent id e ∧ LeaseHeld p id t log ∧ e.before.clock < t

instance (p : ℕ) (id : Uuid) (t : Timestamp) : DecidablePred (Steals p id t) := fun log => by
  delta Steals
  split <;> infer_instance

/-- Form 2 has received submission 5, whose event is due. -/
def oneEvent : Database :=
  { Database.sample with
    submissions := Table.empty.insertNew
      { id := 5, organization_id := 1, form_id := 2, schema_version := 1, data := [], files := []
        status := .unread, ip_address := none, user_agent := none, referer := none,
        created_at := 0 }
    outbox_events := Table.empty.insertNew
      { id := 5, organization_id := 1, form_id := 2, submission_id := 5, attempts := 0
        available_at := 0, dispatched_at := none, last_error := none, created_at := 0 } }

/-- A worker claims the event and is slow; its lease runs out and another worker claims the event;
then the first one's query fails and it puts the event back, due in five seconds. -/
def leaseTakenAway : List Step :=
  [.spawn 0 .dispatch_outbox, .step 0 {}, .pass (seconds CLAIM_LEASE_SECONDS),
    .spawn 1 .dispatch_outbox, .step 1 {}, .fail 0 .unavailable, .step 0 {}, .pass (seconds 5),
    .spawn 2 .dispatch_outbox, .step 2 {}]

/-- **The lease of the second worker is no protection**: a third one is handed the event as well. -/
theorem not_dispatchSound : ¬ ∀ w, Reaches .sample (Regime.free Request.touchesOutbox)
    (World.start oneEvent) w → DispatchSound oneEvent w.shared := by
  intro hall
  have hsound := hall _ (Deployment.sample.reaches_play _ leaseTakenAway oneEvent)
  have hsteals : Steals 1 5 (seconds 240) (Deployment.sample.play
      (Regime.free Request.touchesOutbox) leaseTakenAway oneEvent).shared.log := by decide +kernel
  have hexclusive := hsound.exclusive
  revert hsteals hexclusive
  cases (Deployment.sample.play (Regime.free Request.touchesOutbox) leaseTakenAway
    oneEvent).shared.log with
  | nil => exact False.elim
  | cons e log =>
    rintro ⟨hclaims, hlease, hclock⟩ ⟨hexclusive, -⟩
    exact absurd (hexclusive 5 1 _ hclaims hlease) (Nat.not_le.mpr hclock)

/-- A worker claims the event, fails and puts it back; another one dispatches it. -/
def retried : List Step :=
  [.spawn 0 .dispatch_outbox, .step 0 {}, .fail 0 .unavailable, .step 0 {}, .pass (seconds 5),
    .spawn 1 .dispatch_outbox, .step 1 {}, .step 1 {}, .step 1 {}, .step 1 { id := 30 }, .step 1 {}]

theorem oneEvent_wellFormed : OutboxWellFormed oneEvent where
  bounded := by decide
  one_delivery := fun _ hd => absurd hd List.not_mem_nil
  form := by decide

/-- The event is dispatched in the end, and nothing was promised in vain. -/
theorem dispatchSound_retried :
    let s := (Deployment.sample.play ownersReschedule retried oneEvent).shared
    (∃ ev ∈ s.db.outbox_events.rows, ev.dispatched_at = some (seconds 5)) ∧
      DispatchSound oneEvent s :=
  ⟨by decide +kernel, dispatchSound_of_reaches oneEvent_wellFormed
    (Deployment.sample.reaches_play ownersReschedule retried oneEvent)⟩

end SubmitSnap
