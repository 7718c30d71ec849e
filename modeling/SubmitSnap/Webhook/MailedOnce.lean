import SubmitSnap.Form.Sound
import SubmitSnap.Webhook.AtLeastOnce

/-!
# The dispatcher: how often an address is written to

A pass enqueues one email for each address of the form, last of all, and then settles the event.
When something fails on the way the event is put back, and a later pass starts over. Nothing is
enqueued twice as long as nothing fails once the first email is out: neither the email to the next
address nor `mark_dispatched`, nor the answer to an email that has reached the queue. If one of
them does, the addresses already written to are written to again.

## The argument

Two things have to be excluded: that one pass enqueues an email twice, and that two passes enqueue
for the same submission. The first is a matter of the loop (`Halfway`): what a pass has enqueued for
the submission is what stands at the beginning of the list it has read. The second needs to know why
a second pass cannot come to have the event. Whoever has enqueued something (`Mailer`) was the last
to be handed the event, and since then the event is either still on its way or dispatched. While it
is on its way it is handed to nobody, as no lease runs out; it is put back only by a pass that has
enqueued nothing, as nothing fails where nothing must; and once dispatched it is not due again.

An outbox event and its submission know each other by their ids. That they do so throughout, and
that the id of an event that is gone never comes back, is `EventsTraced`.

## Main definitions

* `MailedOnce` — no address of the list has been written to twice.
* `InTime` — no pass is cut short and no lease runs out in one, as seen from single events.
* `Unbroken` — nothing fails between the first email of a pass and its end.

## Main results

* `mailedOnce_of_reaches` — the promise, in the runs in which nothing fails there.
* `not_mailedOnce` — the second of two emails fails, and the first is sent again.
-/

namespace SubmitSnap

open Interleave
open Interleave.Script

/-! ### The promise

An email is known by what the event put on the queue. Whether it could be put there, and whether
the answer arrived, are two different events; a pass that has lost the answer counts as having
enqueued. -/

/-- The email for the submission that the event puts on the queue. -/
def enqueues (submission_id : Uuid) : Event → Option EmailJob
  | ⟨_, _, _, .enqueue job, .ok _⟩ => if job.submission_id = submission_id then some job else none
  | _ => none

/-- The emails enqueued for a submission, in order. -/
def mailed (submission_id : Uuid) (log : List Event) : List EmailJob :=
  (log.filterMap (enqueues submission_id)).reverse

/-- Those that `p` has enqueued. -/
def mailedBy (p : ℕ) (submission_id : Uuid) (log : List Event) : List EmailJob :=
  mailed submission_id (log.filter fun e => e.pid = p)

/-- What the event reads of the submission and its form. -/
def readsSource (submission_id : Uuid) : Event → Option NotificationSource
  | ⟨_, _, _, .outbox (.notification_source id), .ok found⟩ =>
    if id = submission_id then found else none
  | _ => none

/-- No email has been enqueued for the submission, or no more than one for each position of a list
of addresses that has been read. -/
def MailedOnce (submission_id : Uuid) (log : List Event) : Prop :=
  mailed submission_id log = [] ∨ ∃ source ∈ log.filterMap (readsSource submission_id),
    (mailed submission_id log).Subperm (source.notify_emails.map (notification_email source))

/-- The outbox events that are handed to `p`. -/
def handedTo (p : ℕ) : Event → List OutboxEvent
  | ⟨p', _, _, .outbox (.claim_due _ _), .ok batch⟩ => if p' = p then batch else []
  | _ => []

/-- The event is `p` settling the outbox event `id`, or trying to. -/
def settlesEvent (p : ℕ) (id : Uuid) : Event → Prop
  | ⟨p', _, _, .outbox (.mark_dispatched id'), _⟩ => p' = p ∧ id' = id
  | ⟨p', _, _, .outbox (.reschedule id' _ _), _⟩ => p' = p ∧ id' = id
  | _ => False

/-- `p` has enqueued an email for the submission and has not come to settling the event `id` yet. -/
abbrev OnTheWay (p : ℕ) (id submission_id : Uuid) : List Event → Prop :=
  Since (fun e => e.pid = p ∧ (enqueues submission_id e).isSome) (settlesEvent p id)

/-- No pass is stopped between enqueuing and settling, and no lease runs out in between: what is
handed out is on nobody's way any more, and who enqueues holds the event. -/
def InTime : Event → List Event → Prop
  | ⟨_, _, _, .outbox (.claim_due _ _), .ok batch⟩, log =>
    ∀ ev ∈ batch, ∀ e ∈ log, ¬ OnTheWay e.pid ev.id ev.submission_id log
  | ⟨p, _, _, .enqueue job, .ok _⟩, log =>
    ∀ ev ∈ log.flatMap (handedTo p), ev.submission_id = job.submission_id →
      LastClaimed p ev.id log
  | _, _ => True

/-- An email that is not enqueued, or not known to be, or an event that is not marked, is one for
which the pass has enqueued nothing. Where the email is in the queue and only the answer is lost,
the pass has enqueued something: no such answer is lost. -/
def Unbroken : Event → List Event → Prop
  | ⟨p, _, _, .enqueue job, .error _⟩, log => mailedBy p job.submission_id log = []
  | ⟨p, _, _, .queue_reply job, .error _⟩, log => mailedBy p job.submission_id log = []
  | ⟨p, _, _, .outbox (.mark_dispatched id), .error _⟩, log =>
    ∀ ev ∈ log.flatMap (handedTo p), ev.id = id → mailedBy p ev.submission_id log = []
  | _, _ => True

/-- The outbox as the service leaves it: ids were drawn from their sequences, and a submission has
one event. -/
structure EventsFit (db : Database) : Prop where
  numbered : ∀ ev ∈ db.outbox_events.rows, ev.id ∈ db.issued ∧ ev.submission_id ∈ db.issued
  one_event : ∀ ev ∈ db.outbox_events.rows, ∀ ev' ∈ db.outbox_events.rows,
    ev.submission_id = ev'.submission_id → ev.id = ev'.id

/-! ### Events and their submissions

The outbox knows a submission by its id and the emails know it too. To speak of *the* event of a
submission one has to know that there is only one, at any time and over time. -/

/-- Where the outbox events of a run from `db₀` come from: they were there, or have been committed
under an id that is new. -/
structure EventsTraced (db₀ : Database) (s : State) : Prop where
  grown : ∀ n ∈ db₀.issued, n ∈ s.db.issued
  later : ∀ e ∈ s.log, ∀ answer, inserted e = some answer → answer.1.id ∉ db₀.issued
  rows : ∀ ev ∈ s.db.outbox_events.rows, ∃ ev₀, Owed db₀ s.log ev₀ ∧ ev₀.id = ev.id ∧
    ev₀.submission_id = ev.submission_id
  handed : ∀ p ev, WasHanded p ev s.log → ∃ ev₀, Owed db₀ s.log ev₀ ∧ ev₀.id = ev.id ∧
    ev₀.submission_id = ev.submission_id

section Traced

variable {P : Platform} {G : Regime} {p p' : ℕ} {r : Request} {c : Choice} {q : Stmt}
  {x : Except Failure q.Reply} {s s' : State} {db₀ db' : Database} {ev ev' : OutboxEvent}
  {log : List Event} {e : Event}

theorem Owed.cons (h : Owed db₀ log ev) : Owed db₀ (e :: log) ev :=
  h.imp id fun ⟨p, r, db, writes, he, hmem⟩ => ⟨p, r, db, writes, List.mem_cons_of_mem _ he, hmem⟩

/-- An event is one of the start, or written under the id of its submission, which is new. -/
theorem Owed.origin (h : Owed db₀ s.log ev) (ht : SubmissionsTraced s) (hs : EventsTraced db₀ s) :
    ev ∈ db₀.outbox_events.rows ∨ (∃ e ∈ s.log, writesEvent ev e) ∧
      ev.submission_id = ev.id ∧ ev.id ∉ db₀.issued := by
  rcases h with hev | ⟨p, r, db, writes, he, hmem⟩
  · exact .inl hev
  · have hwrites : writesEvent ev ⟨p, r, db, .commit writes, .ok ()⟩ := hmem
    obtain ⟨e', he', -, row, hanswer⟩ := ht.written _ he ev hwrites
    obtain ⟨hsubmission, hid⟩ := ht.about e' he' _ hanswer ev rfl
    exact .inr ⟨⟨_, he, hwrites⟩, hsubmission.trans hid.symm, hid ▸ hs.later e' he' _ hanswer⟩

/-- **An event has one submission, and a submission one event.** -/
theorem id_eq_iff_of_owed (hdb : EventsFit db₀) (ht : SubmissionsTraced s)
    (hs : EventsTraced db₀ s) (h : Owed db₀ s.log ev) (h' : Owed db₀ s.log ev') :
    ev.id = ev'.id ↔ ev.submission_id = ev'.submission_id := by
  rcases h.origin ht hs with hev | ⟨-, hsame, hnew⟩ <;>
    rcases h'.origin ht hs with hev' | ⟨-, hsame', hnew'⟩
  · refine ⟨fun hid => ?_, hdb.one_event ev hev ev' hev'⟩
    rw [Table.eq_of_key_eq _ hev hev' hid]
  · constructor <;> intro heq
    · exact absurd (heq ▸ (hdb.numbered ev hev).1) hnew'
    · exact absurd ((heq.trans hsame') ▸ (hdb.numbered ev hev).2) hnew'
  · constructor <;> intro heq
    · exact absurd (heq.symm ▸ (hdb.numbered ev' hev').1) hnew
    · exact absurd ((hsame.symm.trans heq) ▸ (hdb.numbered ev' hev').2) hnew
  · rw [hsame, hsame']

theorem EventsTraced.id_eq_iff (hs : EventsTraced db₀ s) (hdb : EventsFit db₀)
    (ht : SubmissionsTraced s) (h : WasHanded p ev s.log) (h' : WasHanded p' ev' s.log) :
    ev.id = ev'.id ↔ ev.submission_id = ev'.submission_id := by
  obtain ⟨ev₀, howed, hid, hsub⟩ := hs.handed p ev h
  obtain ⟨ev₀', howed', hid', hsub'⟩ := hs.handed p' ev' h'
  rw [← hid, ← hid', ← hsub, ← hsub']
  exact id_eq_iff_of_owed hdb ht hs howed howed'

/-- A commit does not bring an event back: what it writes has not been handed out before. -/
theorem EventsTraced.id_ne_of_writes (hs : EventsTraced db₀ s) (hdb : EventsFit db₀)
    (ht : SubmissionsTraced s) {writes : List Write} (hpre : StoredPre p s (.commit writes))
    (hmem : Write.outbox_event ev ∈ writes) (h : WasHanded p' ev' s.log) : ev'.id ≠ ev.id := by
  intro heq
  obtain ⟨hfirst, e, he, hpid, row, hanswer⟩ := hpre.2 ev hmem
  have hid : ev.id = row.id := (ht.about e he _ hanswer ev rfl).2
  obtain ⟨ev₀, howed, hid₀, -⟩ := hs.handed p' ev' h
  rcases howed.origin ht hs with hev₀ | ⟨⟨e₀, he₀, hwrites₀⟩, -, -⟩
  · refine hs.later e he _ hanswer ?_
    rw [← hid, ← heq, ← hid₀]
    exact (hdb.numbered ev₀ hev₀).1
  · -- Both have been answered the same id, so both are the one submission that commits once.
    obtain ⟨e₁, he₁, hpid₁, row₁, hanswer₁⟩ := ht.written e₀ he₀ ev₀ hwrites₀
    have hid₁ : ev₀.id = row₁.id := (ht.about e₁ he₁ _ hanswer₁ ev₀ rfl).2
    have hsame : row₁.id = row.id := by rw [← hid₁, hid₀, heq, hid]
    have hpids := (ht.once e₁ he₁ e he _ _ hanswer₁ hanswer hsame).2
    exact hfirst e₀ he₀ (hpid₁.symm.trans (hpids.trans hpid)) ev₀ hwrites₀

/-- Every statement keeps track. Outbox events come from commits, and what is handed out is in the
table, so both go back to an event that is owed. An event that is committed now has the id of the
submission that was inserted with it, which was new when it was answered. -/
theorem EventsTraced.effect (hs : EventsTraced db₀ s) (h : G.Effect (store P) p r q s x s') :
    EventsTraced db₀ s' := by
  cases h with
  | @fail failure _ =>
    refine ⟨hs.grown, fun e he answer hanswer => ?_, fun ev hev => ?_, fun p' ev hev => ?_⟩
    · rcases List.mem_cons.mp he with rfl | he
      · rw [inserted_error] at hanswer
        cases hanswer
      · exact hs.later e he answer hanswer
    · obtain ⟨ev₀, howed, hsame⟩ := hs.rows ev hev
      exact ⟨ev₀, howed.cons, hsame⟩
    · rcases wasHanded_cons.mp hev with ⟨_, _, _, _, _, heq, -⟩ | hev
      · cases heq
      · obtain ⟨ev₀, howed, hsame⟩ := hs.handed p' ev hev
        exact ⟨ev₀, howed.cons, hsame⟩
  | @run c db' x _ hrun =>
    obtain ⟨new, hissued⟩ := Stmt.issued_mono hrun
    refine ⟨fun n hn => ?_, fun e he answer hanswer => ?_, fun ev' hev' => ?_, fun p' ev hev => ?_⟩
    · exact hissued ▸ List.mem_append_right _ (hs.grown n hn)
    · rcases List.mem_cons.mp he with rfl | he
      · exact fun hn => (id_of_inserted hrun hanswer).1 (hs.grown _ hn)
      · exact hs.later e he answer hanswer
    · rcases Stmt.event_origin hrun hev' with ⟨ev, hev, hid, hsub, -⟩ | ⟨writes, rfl, hmem⟩
      · obtain ⟨ev₀, howed, hid₀, hsub₀⟩ := hs.rows ev hev
        exact ⟨ev₀, howed.cons, hid₀.trans hid, hsub₀.trans hsub⟩
      · cases hrun
        exact ⟨ev', .inr ⟨_, _, _, writes, List.mem_cons_self, hmem⟩, rfl, rfl⟩
    · rcases wasHanded_cons.mp hev with ⟨_, _, _, _, _, heq, hmem⟩ | hev
      · cases heq
        obtain ⟨ev₁, hev₁, rfl, -, -⟩ := due_of_handed hrun hmem
        obtain ⟨ev₀, howed, hid, hsub⟩ := hs.rows ev₁ hev₁
        exact ⟨ev₀, howed.cons, hid, hsub⟩
      · obtain ⟨ev₀, howed, hsame⟩ := hs.handed p' ev hev
        exact ⟨ev₀, howed.cons, hsame⟩

end Traced

/-! ### Emails in the trace

Counting emails is done on the list of them, in order of time, for one submission; by one process,
or by all. The lemmas say how these lists grow. -/

section Emails

variable {p p' : ℕ} {r : Request} {q : Stmt} {x : Except Failure q.Reply} {db : Database}
  {s s' : State} {ev : OutboxEvent} {submission_id : Uuid} {log : List Event} {e : Event}
  {job : EmailJob}

theorem mem_flatMap_handedTo : ev ∈ log.flatMap (handedTo p) ↔ WasHanded p ev log := by
  rw [List.mem_flatMap]
  constructor
  · rintro ⟨e, he, hev⟩
    unfold handedTo at hev
    split at hev
    · split at hev
      · next hp =>
        subst hp
        exact ⟨_, _, _, _, _, he, hev⟩
      · cases hev
    · cases hev
  · rintro ⟨r, db, limit, lease_seconds, batch, he, hev⟩
    refine ⟨_, he, ?_⟩
    simpa [handedTo] using hev

theorem of_enqueues (h : enqueues submission_id ⟨p, r, db, q, x⟩ = some job) :
    q = .enqueue job ∧ job.submission_id = submission_id := by
  unfold enqueues at h
  split at h
  · next heq =>
    split at h
    · next hid =>
      cases heq
      cases h
      exact ⟨rfl, hid⟩
    · cases h
  · cases h

theorem enqueues_eq_none (h : ∀ job, q ≠ .enqueue job) :
    enqueues submission_id ⟨p, r, db, q, x⟩ = none := by
  cases hjob : enqueues submission_id ⟨p, r, db, q, x⟩ with
  | none => rfl
  | some job => exact absurd (of_enqueues hjob).1 (h job)

theorem enqueues_error {e : Failure} :
    enqueues submission_id ⟨p, r, db, q, .error e⟩ = none := by
  unfold enqueues
  split
  · next heq => cases heq
  · rfl

theorem mailed_cons_of_none (h : enqueues submission_id e = none) :
    mailed submission_id (e :: log) = mailed submission_id log := by
  rw [mailed, List.filterMap_cons_none h, mailed]

theorem mailed_cons_of_some (h : enqueues submission_id e = some job) :
    mailed submission_id (e :: log) = mailed submission_id log ++ [job] := by
  rw [mailed, List.filterMap_cons_some h, List.reverse_cons, mailed]

theorem mailedBy_cons_of_none (h : enqueues submission_id e = none) :
    mailedBy p submission_id (e :: log) = mailedBy p submission_id log := by
  rw [mailedBy, List.filter_cons]
  split
  · rw [mailed_cons_of_none h, mailedBy]
  · rfl

theorem mailedBy_cons_of_ne (h : e.pid ≠ p) :
    mailedBy p submission_id (e :: log) = mailedBy p submission_id log := by
  rw [mailedBy, List.filter_cons_of_neg (by simpa using h), mailedBy]

theorem mailedBy_cons_of_some (hp : e.pid = p) (h : enqueues submission_id e = some job) :
    mailedBy p submission_id (e :: log) = mailedBy p submission_id log ++ [job] := by
  rw [mailedBy, List.filter_cons_of_pos (by simpa using hp), mailed_cons_of_some h, mailedBy]

theorem mailedBy_eq_nil : mailedBy p submission_id log = [] ↔
    ∀ e ∈ log, e.pid = p → enqueues submission_id e = none := by
  simp [mailedBy, mailed, List.filterMap_eq_nil_iff]

/-- If nobody else has enqueued anything, `p` has enqueued everything. -/
theorem mailed_eq_mailedBy (h : ∀ p', p' ≠ p → mailedBy p' submission_id log = []) :
    mailed submission_id log = mailedBy p submission_id log := by
  induction log with
  | nil => rfl
  | cons e log ih =>
    have hothers : ∀ p', p' ≠ p → mailedBy p' submission_id log = [] := fun p' hp' =>
      mailedBy_eq_nil.mpr fun e' he' =>
        mailedBy_eq_nil.mp (h p' hp') e' (List.mem_cons_of_mem _ he')
    cases hjob : enqueues submission_id e with
    | none => rw [mailed_cons_of_none hjob, mailedBy_cons_of_none hjob, ih hothers]
    | some job =>
      have hp : e.pid = p := by
        by_contra hne
        have hnone := mailedBy_eq_nil.mp (h e.pid hne) e List.mem_cons_self rfl
        cases hjob.symm.trans hnone
      rw [mailed_cons_of_some hjob, mailedBy_cons_of_some hp hjob, ih hothers]

/-- What others do adds nothing to what `p` has enqueued. -/
theorem mailedBy_others (h : Others p s s') :
    mailedBy p submission_id s'.log = mailedBy p submission_id s.log := by
  obtain ⟨new, hnew, hne⟩ := h
  rw [hnew]
  clear hnew
  induction new with
  | nil => rfl
  | cons e new ih =>
    rw [List.cons_append, mailedBy_cons_of_ne (hne e List.mem_cons_self)]
    exact ih fun e' he' => hne e' (List.mem_cons_of_mem _ he')

theorem mem_filterMap_readsSource {source : NotificationSource}
    (h : ⟨p, r, db, .outbox (.notification_source submission_id), .ok (some source)⟩ ∈ log) :
    source ∈ log.filterMap (readsSource submission_id) :=
  List.mem_filterMap.mpr ⟨_, h, by simp [readsSource]⟩

end Emails

/-! ### What a pass keeps to

The preconditions say what the emails of a pass are in relation to what it has read; they need
that its batch has one event for a submission (`Apart`), which is not its own doing and is
therefore a hypothesis here, discharged by the invariant. -/

/-- The events that `p` was handed are of different submissions. -/
def Apart (p : ℕ) (log : List Event) : Prop :=
  ∀ ev ev', WasHanded p ev log → WasHanded p ev' log → ev.submission_id = ev'.submission_id →
    ev.id = ev'.id

theorem Apart.of_subset {p : ℕ} {log log' : List Event} (h : Apart p log')
    (hlog : ∀ e ∈ log, e ∈ log') : Apart p log :=
  fun ev ev' hev hev' => h ev ev' (hev.mono hlog) (hev'.mono hlog)

/-- The emails of a pass go to one address after another of a list it has read, and it puts an event
back only if it has enqueued nothing for it, or something has failed where nothing must. -/
def MailPre (p : ℕ) (log : List Event) : Stmt → Prop
  | .enqueue job => ∃ ev source, WasHanded p ev log ∧ ev.submission_id = job.submission_id ∧
      source ∈ log.filterMap (readsSource job.submission_id) ∧
      (Apart p log → mailedBy p job.submission_id log ++ [job] <+:
        source.notify_emails.map (notification_email source))
  | .outbox (.reschedule id _ _) => Apart p log → Throughout Unbroken log →
      ∃ ev, WasHanded p ev log ∧ ev.id = id ∧ mailedBy p ev.submission_id log = []
  | _ => True

/-- Nothing of the database is needed: what a pass goes by is what it has done itself. -/
def mailLogic (P : Platform) (G : Regime) : Logic G (store P) :=
  .ofPre fun p _ q s => MailPre p s.log q

/-- `p` has claimed one batch, and has not come to `rest` of it yet. -/
structure Mailing (p : ℕ) (batch rest : List OutboxEvent) (log : List Event) : Prop where
  handed : ∀ ev ∈ batch, WasHanded p ev log
  nodup : (batch.map (·.id)).Nodup
  suffix : rest <:+ batch
  unmailed : Apart p log → ∀ ev ∈ rest, mailedBy p ev.submission_id log = []

section Mailing

variable {p : ℕ} {batch rest : List OutboxEvent} {ev : OutboxEvent} {log : List Event}
  {s s' : State} {e : Event}

theorem Mailing.others (h : Mailing p batch rest s.log) (ho : Others p s s') :
    Mailing p batch rest s'.log where
  handed ev hev := (h.handed ev hev).mono fun _ => ho.mem
  nodup := h.nodup
  suffix := h.suffix
  unmailed hapart ev hev := by
    rw [mailedBy_others ho]
    exact h.unmailed (hapart.of_subset fun _ => ho.mem) ev hev

/-- An event that is no email. -/
theorem Mailing.cons (h : Mailing p batch rest log) (he : ∀ sid, enqueues sid e = none) :
    Mailing p batch rest (e :: log) where
  handed ev hev := (h.handed ev hev).mono fun _ => List.mem_cons_of_mem _
  nodup := h.nodup
  suffix := h.suffix
  unmailed hapart ev hev := by
    rw [mailedBy_cons_of_none (he ev.submission_id)]
    exact h.unmailed (hapart.of_subset fun _ => List.mem_cons_of_mem _) ev hev

theorem Mailing.effect {P : Platform} {G : Regime} {r : Request} {q : Stmt}
    {x : Except Failure q.Reply} (h : Mailing p batch rest s.log)
    (hx : G.Effect (store P) p r q s x s') (hq : ∀ job, q ≠ .enqueue job) :
    Mailing p batch rest s'.log := by
  rw [hx.log_eq]
  exact h.cons fun _ => enqueues_eq_none hq

theorem Mailing.next (h : Mailing p batch (ev :: rest) log) : Mailing p batch rest log where
  handed := h.handed
  nodup := h.nodup
  suffix := (List.suffix_cons ev rest).trans h.suffix
  unmailed hapart ev' hev' := h.unmailed hapart ev' (List.mem_cons_of_mem _ hev')

/-- What is left of a batch is of other submissions than the event that is next. -/
theorem Mailing.submission_ne (h : Mailing p batch rest log) (hnext : ev :: rest <:+ batch)
    (hapart : Apart p log) {ev' : OutboxEvent} (hev' : ev' ∈ rest) :
    ev.submission_id ≠ ev'.submission_id := by
  intro heq
  have hmem : ev ∈ batch := hnext.subset List.mem_cons_self
  have hmem' : ev' ∈ batch := hnext.subset (List.mem_cons_of_mem _ hev')
  have hid : ev.id = ev'.id := hapart ev ev' (h.handed ev hmem) (h.handed ev' hmem') heq
  have hnodup : ((ev :: rest).map (·.id)).Nodup := (hnext.sublist.map _).nodup h.nodup
  rw [List.map_cons, List.nodup_cons] at hnodup
  exact hnodup.1 (hid ▸ List.mem_map_of_mem hev')

end Mailing

/-! #### The pass -/

/-- No event is handed out twice in one batch. -/
theorem nodup_of_claim_due {db db' : Database} {limit lease_seconds : ℕ} {batch : List OutboxEvent}
    (h : (OutboxStmt.claim_due limit lease_seconds).run db = some (db', .ok batch)) :
    (batch.map (·.id)).Nodup := by
  cases h
  have hrows : (db.dueEvents.map (·.id)).Nodup := by
    refine (((List.perm_insertionSort _ _).map _).nodup_iff).mpr ?_
    exact (List.filter_sublist.map _).nodup db.outbox_events.nodup
  rw [List.map_map]
  exact ((List.take_sublist limit _).map _).nodup hrows

/-- The statements that neither enqueue an email nor put an event back. -/
def Stmt.unmailed : Stmt → Prop
  | enqueue _ | outbox (.reschedule _ _ _) => False
  | _ => True

theorem Stmt.unmailed_of_served {q : Stmt} (h : q.served) : q.unmailed := by
  cases q with
  | enqueue _ | outbox _ => exact h.elim
  | _ => trivial

theorem Stmt.unmailed.mailPre {q : Stmt} {p : ℕ} {log : List Event} (h : q.unmailed) :
    MailPre p log q := by
  unfold MailPre
  split
  · exact h.elim
  · exact h.elim
  · trivial

theorem enqueue_deliveries_unmailed (organization_id form_id submission_id : Uuid)
    (payload : Value) : (WebhookService.enqueue_deliveries organization_id form_id submission_id
      payload : Code Failure ℕ).Issues Stmt.unmailed :=
  (issues_query trivial).bind fun _ => issues_query trivial

/-- What is read for a submission is about it. -/
theorem source_submission_id {P : Platform} {G : Regime} {p : ℕ} {r : Request}
    {submission_id : Uuid} {s s' : State} {source : NotificationSource}
    (h : G.Effect (store P) p r (.outbox (.notification_source submission_id)) s (.ok (some source))
      s') : source.submission_id = submission_id := by
  obtain ⟨-, c, db, hrun, -⟩ := h.of_ok
  simp only [store, Stmt.run, OutboxStmt.run, Option.some.injEq, Prod.mk.injEq,
    Except.ok.injEq] at hrun
  obtain ⟨row, hrow, hrest⟩ := Option.bind_eq_some_iff.mp hrun.2
  obtain ⟨form, -, heq⟩ := Option.bind_eq_some_iff.mp hrest
  cases heq
  exact (Table.find?_eq_some.mp hrow).2

section Scripts

variable {d : Deployment} {G : Regime} {p : ℕ} {r : Request} {s : State}
  {batch rest : List OutboxEvent} {ev : OutboxEvent} {source : NotificationSource}

/-- Statements that enqueue nothing leave the rest of the batch as it is. -/
theorem wp_mailing {ε α : Type} {x : Code ε α} (hx : x.Issues Stmt.unmailed)
    (hs : Mailing p batch rest s.log) :
    (mailLogic d.platform G).wp p r x (fun _ s' => Mailing p batch rest s'.log) s := by
  refine Logic.wp_of_does Stmt.unmailed (fun _ _ => True) (fun s => Mailing p batch rest s.log)
    (fun _ => True) (fun hs he => hs.others he.others) (fun hq _ _ => hq.mailPre)
    (fun hq _ hs hx _ => ⟨trivial, hs.effect hx fun job heq => ?_⟩) (fun _ hs => hs) hx.does hs
  subst heq
  exact hq

/-- How dispatching `ev` ends: if it fails, nothing has been enqueued for it, or something has
failed where nothing must. -/
def Dispatched (p : ℕ) (batch rest : List OutboxEvent) (ev : OutboxEvent) (y : Except Failure Unit)
    (s : State) : Prop :=
  Mailing p batch rest s.log ∧ (y ≠ .ok () → Apart p s.log → Throughout Unbroken s.log →
    mailedBy p ev.submission_id s.log = [])

theorem Mailing.dispatched (h : Mailing p batch (ev :: rest) s.log) (y : Except Failure Unit) :
    Dispatched p batch rest ev y s :=
  ⟨h.next, fun _ hapart _ => h.unmailed hapart ev List.mem_cons_self⟩

/-- What has been done when `recipients` are still to be written to. -/
structure Halfway (p : ℕ) (batch rest : List OutboxEvent) (ev : OutboxEvent)
    (source : NotificationSource) (recipients : List String) (log : List Event) : Prop where
  mailing : Mailing p batch rest log
  next : ev :: rest <:+ batch
  about : source.submission_id = ev.submission_id
  read : source ∈ log.filterMap (readsSource ev.submission_id)
  done : ∃ done, source.notify_emails = done ++ recipients ∧
    (Apart p log → mailedBy p ev.submission_id log = done.map (notification_email source))

variable {recipients : List String} {recipient : String}

theorem Halfway.others {s' : State} (h : Halfway p batch rest ev source recipients s.log)
    (ho : Others p s s') : Halfway p batch rest ev source recipients s'.log where
  mailing := h.mailing.others ho
  next := h.next
  about := h.about
  read := by
    obtain ⟨e, he, hread⟩ := List.mem_filterMap.mp h.read
    exact List.mem_filterMap.mpr ⟨e, ho.mem he, hread⟩
  done := by
    obtain ⟨done, heq, hdone⟩ := h.done
    refine ⟨done, heq, fun hapart => ?_⟩
    rw [mailedBy_others ho]
    exact hdone (hapart.of_subset fun _ => ho.mem)

/-- The next email may be enqueued. -/
theorem Halfway.mailPre (h : Halfway p batch rest ev source (recipient :: recipients) s.log) :
    MailPre p s.log (.enqueue (notification_email source recipient)) := by
  obtain ⟨done, heq, hdone⟩ := h.done
  have hmem : ev ∈ batch := h.next.subset List.mem_cons_self
  refine ⟨ev, source, h.mailing.handed ev hmem, h.about.symm, ?_, fun hapart => ?_⟩
  · change source ∈ s.log.filterMap (readsSource source.submission_id)
    rw [h.about]
    exact h.read
  · change mailedBy p source.submission_id s.log ++ _ <+: _
    rw [h.about, hdone hapart, heq]
    exact ⟨recipients.map (notification_email source), by simp⟩

/-- One more email is out. -/
theorem Halfway.enqueued {db : Database}
    (h : Halfway p batch rest ev source (recipient :: recipients) s.log) :
    Halfway p batch rest ev source recipients
      (⟨p, r, db, .enqueue (notification_email source recipient), .ok ()⟩ :: s.log) := by
  have hgrow : ∀ {e : Event}, e ∈ s.log →
      e ∈ ⟨p, r, db, .enqueue (notification_email source recipient), .ok ()⟩ :: s.log :=
    fun he => List.mem_cons_of_mem _ he
  refine ⟨⟨fun ev' hev' => (h.mailing.handed ev' hev').mono fun _ => hgrow, h.mailing.nodup,
    h.mailing.suffix, fun hapart ev' hev' => ?_⟩, h.next, h.about, ?_, ?_⟩
  · have hapart₀ : Apart p s.log := hapart.of_subset fun _ => hgrow
    have hne : source.submission_id ≠ ev'.submission_id := by
      rw [h.about]
      exact h.mailing.submission_ne h.next hapart₀ hev'
    rw [mailedBy_cons_of_none (by simp [enqueues, notification_email, hne])]
    exact h.mailing.unmailed hapart₀ ev' hev'
  · obtain ⟨e, he, hread⟩ := List.mem_filterMap.mp h.read
    exact List.mem_filterMap.mpr ⟨e, hgrow he, hread⟩
  · obtain ⟨done, heq, hdone⟩ := h.done
    refine ⟨done ++ [recipient], by simp [heq], fun hapart => ?_⟩
    have hjob : enqueues ev.submission_id ⟨p, r, db, .enqueue (notification_email source recipient),
        .ok ()⟩ = some (notification_email source recipient) := by
      simp [enqueues, notification_email, h.about]
    rw [mailedBy_cons_of_some rfl hjob, hdone (hapart.of_subset fun _ => hgrow), List.map_append,
      List.map_singleton]

theorem Halfway.effect {q : Stmt} {x : Except Failure q.Reply} {s' : State}
    (h : Halfway p batch rest ev source recipients s.log)
    (hx : G.Effect (store d.platform) p r q s x s')
    (hq : ∀ job, q ≠ .enqueue job) : Halfway p batch rest ev source recipients s'.log where
  mailing := h.mailing.effect hx hq
  next := h.next
  about := h.about
  read := by
    obtain ⟨e, he, hread⟩ := List.mem_filterMap.mp h.read
    exact List.mem_filterMap.mpr ⟨e, hx.mem he, hread⟩
  done := by
    obtain ⟨done, heq, hdone⟩ := h.done
    refine ⟨done, heq, fun hapart => ?_⟩
    rw [hx.log_eq, mailedBy_cons_of_none (enqueues_eq_none hq)]
    exact hdone (hapart.of_subset fun _ => hx.mem)

/-- The answer to an email that is in the queue. If it is lost, something has failed where nothing
must. -/
theorem wp_queue_reply_mailing
    (hs : Halfway p batch rest ev source recipients s.log) :
    (mailLogic d.platform G).wp p r
      (ask (.queue_reply (notification_email source recipient)) : Code Failure Unit)
      (fun y s' => match y with
        | .ok _ => Halfway p batch rest ev source recipients s'.log
        | .error e => Dispatched p batch rest ev (.error e) s') s := by
  refine Logic.wp_query fun s₁ he₁ => ?_
  have hs₁ := hs.others he₁.others
  refine ⟨trivial, fun _ s₂ hx₂ _ s₃ he₃ => (hs₁.effect hx₂ fun _ => nofun).others he₃.others,
    fun e s₂ hx₂ _ s₃ he₃ => ?_⟩
  have hs₂ := hs₁.effect hx₂ fun _ => nofun
  refine ⟨(hs₂.others he₃.others).mailing, fun _ _ hunbroken => ?_⟩
  obtain ⟨new, hnew, -⟩ := he₃.others
  rw [hnew, hx₂.log_eq] at hunbroken
  have hlast := hunbroken.of_append.1
  change mailedBy p source.submission_id s₁.log = [] at hlast
  rw [mailedBy_others he₃.others, hx₂.log_eq,
    mailedBy_cons_of_none (enqueues_eq_none (q := .queue_reply _) fun _ => nofun), ← hs.about]
  exact hlast

/-- The loop over the addresses. -/
theorem wp_enqueue_emails_mailing
    (hs : Halfway p batch rest ev source source.notify_emails s.log) :
    (mailLogic d.platform G).wp p r (Dispatcher.enqueue_emails source)
      (Dispatched p batch rest ev) s := by
  refine Logic.wp_forEach (fun recipients s' => Halfway p batch rest ev source recipients s'.log)
    (fun recipient recipients s₁ _ hs₁ => ?_) (fun s₁ s₂ hs₁ he => ?_) source.notify_emails s
    trivial hs
  · refine Logic.wp_query_bind fun s₂ he₂ => ?_
    have hs₂ := hs₁.others he₂.others
    refine ⟨hs₂.mailPre, fun _ s₃ hx₃ _ => ?_, fun e s₃ hx₃ _ s₄ he₄ => ?_⟩
    · have hs₃ : Halfway p batch rest ev source recipients s₃.log := by
        rw [hx₃.log_eq]
        exact hs₂.enqueued
      refine Logic.wp_mono (wp_queue_reply_mailing hs₃) fun y _ _ h => ?_
      cases y <;> exact h
    · have hmailing : Mailing p batch rest s₃.log := by
        rw [hx₃.log_eq]
        exact hs₂.mailing.cons fun _ => enqueues_error
      refine ⟨hmailing.others he₄.others, fun _ _ hunbroken => ?_⟩
      -- The email that failed was the first one.
      have hnone : mailedBy p ev.submission_id s₂.log = [] := by
        obtain ⟨new, hnew, -⟩ := he₄.others
        rw [hnew, hx₃.log_eq] at hunbroken
        have hlast := hunbroken.of_append.1
        change mailedBy p source.submission_id s₂.log = [] at hlast
        rwa [hs₂.about] at hlast
      rw [mailedBy_others he₄.others, hx₃.log_eq, mailedBy_cons_of_none enqueues_error]
      exact hnone
  · exact ⟨(hs₁.others he.others).mailing, fun hne => absurd rfl hne⟩

/-- One event is dispatched, and the rest of the batch is left. -/
theorem wp_dispatch_submission_mailing (hs : Mailing p batch (ev :: rest) s.log) :
    (mailLogic d.platform G).wp p r (Dispatcher.dispatch_submission ev)
      (Dispatched p batch rest ev) s := by
  refine Logic.wp_query_bind fun s₁ he₁ => ?_
  have hs₁ := hs.others he₁.others
  refine ⟨trivial, fun found s₂ hx₂ _ => ?_, fun e s₂ hx₂ _ s₃ he₃ =>
    ((hs₁.effect hx₂ fun _ => nofun).others he₃.others).dispatched _⟩
  have hs₂ := hs₁.effect hx₂ fun _ => nofun
  cases found with
  | none => exact fun s₃ he₃ => (hs₂.others he₃.others).dispatched _
  | some source =>
    refine Logic.wp_bind trivial
      (Logic.wp_grows (wp_mailing (enqueue_deliveries_unmailed _ _ _ _) hs₂)
      fun _ he => he) (fun _ s₃ _ hs₃ => ?_) fun e s₃ _ hs₃ => hs₃.1.dispatched _
    refine wp_enqueue_emails_mailing ⟨hs₃.1.next, hs₃.1.suffix, source_submission_id hx₂,
      mem_filterMap_readsSource (hs₃.2 _ hx₂.mem_self), [], rfl, fun hapart => ?_⟩
    exact hs₃.1.unmailed hapart ev List.mem_cons_self

/-- **One event of the batch**: put back only if nothing has been enqueued for it. -/
theorem wp_settle_mailing (hs : Mailing p batch (ev :: rest) s.log) :
    (mailLogic d.platform G).wp p r (Dispatcher.settle d ev)
      (fun y s' => y = .ok () → Mailing p batch rest s'.log) s := by
  refine Logic.wp_bind trivial (Ψ := fun y s' => ∃ outcome, y = .ok outcome ∧
    Dispatched p batch rest ev outcome s') (Logic.wp_result (Logic.wp_mono
      (wp_dispatch_submission_mailing hs) fun outcome _ _ h => ⟨outcome, rfl, h⟩)) ?_
    fun _ _ _ _ => nofun
  rintro outcome s₁ - ⟨_, heq, hmailing, hfailed⟩
  cases heq
  have hmem : ev ∈ batch := hs.suffix.subset List.mem_cons_self
  cases outcome with
  | ok _ =>
    exact Logic.wp_query fun s₂ he₂ => ⟨trivial, fun _ s₃ hx₃ _ s₄ he₄ _ =>
      ((hmailing.others he₂.others).effect hx₃ fun _ => nofun).others he₄.others,
      fun _ _ _ _ _ _ => nofun⟩
  | error e =>
    refine Logic.wp_query fun s₂ he₂ => ⟨fun hapart hunbroken => ?_, fun _ s₃ hx₃ _ s₄ he₄ _ =>
      ((hmailing.others he₂.others).effect hx₃ fun _ => nofun).others he₄.others,
      fun _ _ _ _ _ _ => nofun⟩
    refine ⟨ev, (hmailing.others he₂.others).handed ev hmem, rfl, ?_⟩
    obtain ⟨new, hnew, -⟩ := he₂.others
    rw [mailedBy_others he₂.others]
    exact hfailed nofun (hapart.of_subset fun _ => he₂.others.mem) (hnew ▸ hunbroken).of_append

theorem wp_run_once_mailing (hfresh : ∀ e ∈ s.log, e.pid ≠ p) :
    (mailLogic d.platform G).wp p r (Dispatcher.run_once d) (fun _ _ => True) s := by
  refine Logic.wp_query_bind fun s₁ he₁ => ⟨trivial, fun events s₂ hx₂ _ => ?_,
    fun _ _ _ _ _ _ => trivial⟩
  obtain ⟨-, c, db', hrun, -⟩ := hx₂.of_ok
  have hmailing : Mailing p events events s₂.log := by
    refine ⟨fun ev hev => ⟨_, _, _, _, _, hx₂.mem_self, hev⟩, nodup_of_claim_due hrun,
      List.suffix_rfl, fun _ ev _ => ?_⟩
    rw [hx₂.log_eq, mailedBy_cons_of_none (enqueues_eq_none (q := .outbox (.claim_due _ _))
      fun _ => nofun), mailedBy_others he₁.others]
    exact mailedBy_eq_nil.mpr fun e he hp => absurd hp (hfresh e he)
  refine Logic.wp_forEach (fun rest s' => Mailing p events rest s'.log) (fun ev rest s₃ _ hs₃ => ?_)
    (fun _ _ _ _ => trivial) events s₂ trivial hmailing
  refine Logic.wp_mono (wp_settle_mailing hs₃) fun y s₄ _ h => ?_
  cases y with
  | ok _ => exact h rfl
  | error _ => trivial

theorem deliver_webhooks_unmailed : (WebhookDeliverer.run_once d).Issues Stmt.unmailed := by
  refine (issues_query trivial).bind fun deliveries =>
    Issues.forEach (fun delivery => ?_) deliveries
  refine (issues_attempt trivial).bind fun answer => ?_
  split
  · split <;> exact (issues_attempt trivial).bind fun _ => issues_ret
  · exact (issues_attempt trivial).bind fun _ => issues_ret
  · exact (issues_attempt trivial).bind fun _ => issues_ret

/-- Any request keeps to it, if it starts under a new name. -/
theorem wp_mail (hfresh : ∀ e ∈ s.log, e.pid ≠ p) :
    (mailLogic d.platform G).wp p r (Request.code d r) (fun _ _ => True) s := by
  have hfree : ∀ {ε α : Type} {x : Code ε α}, x.Issues Stmt.unmailed →
      (mailLogic d.platform G).wp p r x (fun _ _ => True) s := fun hx =>
    Logic.wp_of_does Stmt.unmailed (fun _ _ => True) (fun _ => True) (fun _ => True)
      (fun _ _ => trivial) (fun hq _ _ => hq.mailPre) (fun _ _ _ _ _ => ⟨trivial, trivial⟩)
      (fun _ _ => trivial) hx.does trivial
  by_cases hr : r.isPass
  · cases r with
    | deliver_webhooks => exact hfree deliver_webhooks_unmailed
    | dispatch_outbox => exact wp_run_once_mailing hfresh
    | _ => exact hr.elim
  · exact hfree ((Request.served hr).mono fun _ => Stmt.unmailed_of_served)

end Scripts

/-! ### What every statement keeps

Two things are put together: what each pass keeps to, and the life of an event. The result is that
there is one mailer for a submission at most. -/

/-- Who has enqueued an email for the submission was handed its event, and has been the last. The
event is still on the way, or it is dispatched. -/
def Mailer (p : ℕ) (submission_id : Uuid) (s : State) : Prop :=
  ∃ ev, WasHanded p ev s.log ∧ ev.submission_id = submission_id ∧ LastClaimed p ev.id s.log ∧
    (OnTheWay p ev.id submission_id s.log ∨
      ∀ row ∈ s.db.outbox_events.rows, row.id = ev.id → row.dispatched_at ≠ none)

/-- What holds as long as passes are in time and unbroken. -/
structure MailsKept (s : State) : Prop where
  mailers : ∀ p submission_id, mailedBy p submission_id s.log ≠ [] → Mailer p submission_id s
  once : ∀ submission_id, MailedOnce submission_id s.log

section Effect

variable {P : Platform} {G : Regime} {p p' : ℕ} {r : Request} {c : Choice} {q : Stmt}
  {x : Except Failure q.Reply} {s s' : State} {db₀ db' : Database} {ev : OutboxEvent}
  {submission_id : Uuid} {log : List Event} {e : Event} {job : EmailJob}

/-- A dispatched event stays dispatched, and its id does not come back. -/
theorem EventsTraced.dispatched_kept (hs : EventsTraced db₀ s) (hdb : EventsFit db₀)
    (ht : SubmissionsTraced s) (hpre : StoredPre p s q) (h : WasHanded p' ev s.log)
    (hdone : ∀ row ∈ s.db.outbox_events.rows, row.id = ev.id → row.dispatched_at ≠ none)
    (hx : G.Effect (store P) p r q s x s') :
    ∀ row ∈ s'.db.outbox_events.rows, row.id = ev.id → row.dispatched_at ≠ none := by
  intro row' hrow' hid
  cases hx with
  | fail _ => exact hdone row' hrow' hid
  | run _ hrun =>
    rcases Stmt.event_origin hrun hrow' with ⟨row, hrow, hid', -, hkept⟩ | ⟨writes, rfl, hmem⟩
    · exact hkept (hdone row hrow (hid'.trans hid))
    · exact absurd hid.symm (hs.id_ne_of_writes hdb ht hpre hmem h)

/-- Whoever marks an event has it dispatched. -/
theorem dispatched_of_mark {id : Uuid}
    (h : G.Effect (store P) p r (.outbox (.mark_dispatched id)) s (.ok ()) s') :
    ∀ row ∈ s'.db.outbox_events.rows, row.id = id → row.dispatched_at ≠ none := by
  intro row hrow hid
  obtain ⟨-, c, db, hrun, rfl⟩ := h.of_ok
  cases hrun
  obtain ⟨ev, -, ⟨-, rfl⟩ | ⟨hne, rfl⟩⟩ := Table.of_mem_updateWhere hrow
  · exact nofun
  · exact absurd hid (by simpa using hne)

/-- What is handed out is neither on the way nor dispatched, so it is not an event of a mailer. -/
theorem Mailer.not_claimed (hs : EventsTraced db₀ s') (hdb : EventsFit db₀)
    (ht : SubmissionsTraced s') (hx : G.Effect (store P) p r q s x s')
    (htime : InTime ⟨p, r, s.db, q, x⟩ s.log) (h : WasHanded p' ev s.log)
    (hway : OnTheWay p' ev.id ev.submission_id s.log ∨
      ∀ row ∈ s.db.outbox_events.rows, row.id = ev.id → row.dispatched_at ≠ none) :
    ¬ claimsEvent ev.id ⟨p, r, s.db, q, x⟩ := by
  intro hclaims
  unfold claimsEvent at hclaims
  split at hclaims
  · next heq =>
    cases heq
    obtain ⟨ev', hmem, hid⟩ := hclaims
    have hwas : WasHanded p ev' s'.log := ⟨_, _, _, _, _, hx.mem_self, hmem⟩
    have hsub : ev'.submission_id = ev.submission_id :=
      (hs.id_eq_iff hdb ht hwas (h.mono fun _ => hx.mem)).mp hid
    obtain ⟨_, c, db, hrun, -⟩ := hx.of_ok
    obtain ⟨row, hrow, rfl, hopen, -⟩ := due_of_handed hrun hmem
    rcases hway with hway | hdone
    · obtain ⟨r₀, db₀, limit, lease_seconds, batch, he, -⟩ := h
      refine htime _ hmem _ he ?_
      rw [hid, hsub]
      exact hway
    · exact hdone row hrow hid hopen
  · exact hclaims

/-- **What a mailer can count on**, whoever executes the next statement. The event can only be
claimed by somebody else if it is due again, which it is not while it is on the way or dispatched.
And it ceases to be on the way only by the mailer's own hand: either it is marked, and then it is
dispatched, or it is put back or the mark fails, and then the mailer would have enqueued nothing.
-/
theorem Mailer.effect (hs : EventsTraced db₀ s) (hs' : EventsTraced db₀ s') (hdb : EventsFit db₀)
    (ht : SubmissionsTraced s) (ht' : SubmissionsTraced s') (hstored : StoredPre p s q)
    (hpre : MailPre p s.log q) (hapart : Apart p s.log) (hunbroken : Throughout Unbroken s'.log)
    (htime : InTime ⟨p, r, s.db, q, x⟩ s.log) (hx : G.Effect (store P) p r q s x s')
    (hmailed : mailedBy p' submission_id s.log ≠ []) (h : Mailer p' submission_id s) :
    Mailer p' submission_id s' := by
  obtain ⟨ev, hwas, rfl, hlast, hway⟩ := h
  refine ⟨ev, hwas.mono fun _ => hx.mem, rfl, ?_, ?_⟩
  · rw [hx.log_eq]
    exact .inr ⟨Mailer.not_claimed hs' hdb ht' hx htime hwas hway, hlast⟩
  rcases hway with hway | hdone
  · by_cases hsettles : settlesEvent p' ev.id ⟨p, r, s.db, q, x⟩
    · unfold settlesEvent at hsettles
      split at hsettles
      · next reply heq =>
        obtain ⟨rfl, rfl⟩ := hsettles
        cases heq
        cases reply with
        | ok _ => exact .inr (dispatched_of_mark hx)
        | error e =>
          rw [hx.log_eq] at hunbroken
          exact absurd (hunbroken.1 ev (mem_flatMap_handedTo.mpr hwas) rfl) hmailed
      · next heq =>
        obtain ⟨rfl, rfl⟩ := hsettles
        cases heq
        have hbefore : Throughout Unbroken s.log := by
          rw [hx.log_eq] at hunbroken
          exact hunbroken.2
        obtain ⟨ev', hwas', hid, hnone⟩ := hpre hapart hbefore
        rw [(hs.id_eq_iff hdb ht hwas' hwas).mp hid] at hnone
        exact absurd hnone hmailed
      · exact hsettles.elim
    · left
      rw [hx.log_eq]
      exact .inr ⟨hsettles, hway⟩
  · exact .inr (hs.dispatched_kept hdb ht hstored hwas hdone hx)

/-- Who enqueues an email is a mailer. -/
theorem Mailer.of_enqueue (hpre : MailPre p s.log (.enqueue job))
    (htime : InTime ⟨p, r, s.db, .enqueue job, .ok ()⟩ s.log) :
    Mailer p job.submission_id ⟨db', ⟨p, r, s.db, .enqueue job, .ok ()⟩ :: s.log⟩ := by
  obtain ⟨ev, source, hwas, hsub, -⟩ := hpre
  have hlast : LastClaimed p ev.id s.log := htime ev (mem_flatMap_handedTo.mpr hwas) hsub
  refine ⟨ev, hwas.mono fun _ => List.mem_cons_of_mem _, hsub, .inr ⟨nofun, hlast⟩, .inl (.inl ?_)⟩
  exact ⟨rfl, by simp [enqueues]⟩

theorem MailedOnce.cons (h : MailedOnce submission_id log)
    (he : enqueues submission_id e = none) : MailedOnce submission_id (e :: log) := by
  rw [MailedOnce, mailed_cons_of_none he]
  refine h.imp_right fun ⟨source, hread, hsub⟩ => ⟨source, ?_, hsub⟩
  obtain ⟨e', he', hread⟩ := List.mem_filterMap.mp hread
  exact List.mem_filterMap.mpr ⟨e', List.mem_cons_of_mem _ he', hread⟩

/-- The next email is not one that is out already: all that are have been enqueued by this pass. -/
theorem MailsKept.enqueue (h : MailsKept s) (hs : EventsTraced db₀ s) (hdb : EventsFit db₀)
    (ht : SubmissionsTraced s) (hpre : MailPre p s.log (.enqueue job)) (hapart : Apart p s.log)
    (htime : InTime ⟨p, r, s.db, .enqueue job, .ok ()⟩ s.log) :
    MailedOnce job.submission_id (⟨p, r, s.db, .enqueue job, .ok ()⟩ :: s.log) := by
  obtain ⟨ev, source, hwas, hsub, hread, hearlier⟩ := hpre
  have hlast : LastClaimed p ev.id s.log := htime ev (mem_flatMap_handedTo.mpr hwas) hsub
  have hmine : mailed job.submission_id s.log = mailedBy p job.submission_id s.log := by
    refine mailed_eq_mailedBy fun p' hne => ?_
    by_contra hmailed
    obtain ⟨ev', hwas', hsub', hlast', -⟩ := h.mailers p' _ hmailed
    have hid : ev'.id = ev.id := (hs.id_eq_iff hdb ht hwas' hwas).mpr (hsub'.trans hsub.symm)
    rw [hid] at hlast'
    exact hne (lastClaimed_unique hlast' hlast)
  right
  obtain ⟨e', he', hread⟩ := List.mem_filterMap.mp hread
  refine ⟨source, List.mem_filterMap.mpr ⟨e', List.mem_cons_of_mem _ he', hread⟩, ?_⟩
  have hnew : enqueues job.submission_id ⟨p, r, s.db, .enqueue job, .ok ()⟩ = some job := by
    simp [enqueues]
  rw [mailed_cons_of_some hnew, hmine]
  exact (hearlier hapart).sublist.subperm

/-- Every statement keeps it, if it is in time and unbroken. Only an enqueue that succeeds adds an
email; all emails of the submission are then by one pass, the mailer, and `MailPre` says that the
new one is the next on the list that pass has read. -/
theorem MailsKept.effect (h : MailsKept s) (hs : EventsTraced db₀ s) (hs' : EventsTraced db₀ s')
    (hdb : EventsFit db₀) (ht : SubmissionsTraced s) (ht' : SubmissionsTraced s')
    (hstored : StoredPre p s q) (hpre : MailPre p s.log q)
    (htime : Throughout InTime s'.log) (hunbroken : Throughout Unbroken s'.log)
    (hx : G.Effect (store P) p r q s x s') : MailsKept s' := by
  have hapart : Apart p s.log := fun ev ev' hev hev' => (hs.id_eq_iff hdb ht hev hev').mpr
  have hnow : InTime ⟨p, r, s.db, q, x⟩ s.log := by
    rw [hx.log_eq] at htime
    exact htime.1
  constructor
  · intro p' sid hmailed
    by_cases hbefore : mailedBy p' sid s.log = []
    · -- The first email for the submission.
      rw [hx.log_eq] at hmailed
      have hjob : ∃ job, enqueues sid ⟨p, r, s.db, q, x⟩ = some job := by
        refine Option.ne_none_iff_exists'.mp fun hnone => ?_
        rw [mailedBy_cons_of_none hnone] at hmailed
        exact hmailed hbefore
      have hp : p = p' := by
        by_contra hne
        rw [mailedBy_cons_of_ne hne] at hmailed
        exact hmailed hbefore
      subst hp
      obtain ⟨job, hjob⟩ := hjob
      obtain ⟨rfl, rfl⟩ := of_enqueues hjob
      cases x with
      | ok _ =>
        obtain ⟨-, c, db, -, rfl⟩ := hx.of_ok
        exact Mailer.of_enqueue hpre hnow
      | error e =>
        rw [enqueues_error] at hjob
        cases hjob
    · exact Mailer.effect hs hs' hdb ht ht' hstored hpre hapart hunbroken hnow hx hbefore
        (h.mailers p' sid hbefore)
  · intro sid
    rw [hx.log_eq]
    cases hjob : enqueues sid ⟨p, r, s.db, q, x⟩ with
    | none => exact (h.once sid).cons hjob
    | some job =>
      obtain ⟨rfl, rfl⟩ := of_enqueues hjob
      cases x with
      | ok _ => exact h.enqueue hs hdb ht hpre hapart hnow
      | error e =>
        rw [enqueues_error] at hjob
        cases hjob

end Effect

/-! ### Every run -/

section Run

variable {d : Deployment} {db : Database} {w : World}

theorem EventsTraced.start : EventsTraced db (World.start db).shared where
  grown _ hn := hn
  later _ he := absurd he List.not_mem_nil
  rows ev hev := ⟨ev, .inl hev, rfl, rfl⟩
  handed _ _ := fun ⟨_, _, _, _, _, he, _⟩ => absurd he List.not_mem_nil

/-- **No address is written to twice**, in every run in which passes are in time and unbroken. -/
theorem mailedOnce_of_reaches (hdb : EventsFit db)
    (hsubmissions : ∀ row ∈ db.submissions.rows, row.id ∈ db.issued)
    (h : Reaches d anything (World.start db) w) (htime : Throughout InTime w.shared.log)
    (hunbroken : Throughout Unbroken w.shared.log) (submission_id : Uuid) :
    MailedOnce submission_id w.shared.log := by
  let L := (storedLogic d.platform anything).prod (mailLogic d.platform anything)
  let post : (p : ℕ) → (r : Request) → Except r.Err r.Res → State → Prop :=
    fun p r y s => StoredPost p r y s ∧ True
  have hspec : ∀ p r s, anything.spawns r → L.inv s → (∀ e ∈ s.log, e.pid ≠ p) →
      L.wp p r (Request.code d r) (post p r) s := fun p r s _ _ hfresh =>
    Logic.wp_prod (wp_stored r hfresh) (wp_mail hfresh)
  have hstart : L.Safe post (World.start db) := .start ⟨trivial, trivial⟩
  have hinv : SubmissionsTraced w.shared ∧ EventsTraced db w.shared ∧
      (Throughout InTime w.shared.log → Throughout Unbroken w.shared.log → MailsKept w.shared) := by
    refine Logic.inv_of_reaches (I := fun s => SubmissionsTraced s ∧ EventsTraced db s ∧
      (Throughout InTime s.log → Throughout Unbroken s.log → MailsKept s)) hspec hstart
      ?_ ?_ ?_ ?_ h
    · exact ⟨.start hsubmissions, .start, fun _ _ =>
        ⟨fun _ _ hmailed => absurd rfl hmailed, fun _ => .inl rfl⟩⟩
    · rintro p r q s x s' - hpre ⟨ht, hs, hkept⟩ hx
      have ht' := ht.effect hpre.1 hx
      have hs' := hs.effect hx
      refine ⟨ht', hs', fun htime hunbroken => ?_⟩
      have hbefore : Throughout InTime s.log ∧ Throughout Unbroken s.log := by
        rw [hx.log_eq] at htime hunbroken
        exact ⟨htime.2, hunbroken.2⟩
      exact (hkept hbefore.1 hbefore.2).effect hs hs' hdb ht ht' hpre.1 hpre.2 htime hunbroken hx
    · rintro p s - ⟨ht, hs, hkept⟩
      exact ⟨⟨ht.1, ht.2, ht.3, ht.4, ht.5, ht.6⟩, ⟨hs.1, hs.2, hs.3, hs.4⟩, fun htime hunbroken =>
        ⟨(hkept htime hunbroken).1, (hkept htime hunbroken).2⟩⟩
    · rintro e s ⟨ht, hs, hkept⟩
      exact ⟨⟨ht.1, ht.2, ht.3, ht.4, ht.5, ht.6⟩, ⟨hs.1, hs.2, hs.3, hs.4⟩, fun htime hunbroken =>
        ⟨(hkept htime hunbroken).1, (hkept htime hunbroken).2⟩⟩
  exact (hinv.2.2 htime hunbroken).once submission_id

end Run

/-! ### An email that is sent again

Nothing stops and no lease runs out: the second `RPUSH` fails, and the event is put back although
an email has gone out. -/

instance (p : ℕ) (id : Uuid) : DecidablePred (settlesEvent p id) := fun e => by
  delta settlesEvent
  split <;> infer_instance

instance (e : Event) (log : List Event) : Decidable (InTime e log) := by
  induction e using Interleave.Event.casesOn with | mk _ _ _ q reply
  induction q using Stmt.casesOn with
  | outbox q =>
    induction q using OutboxStmt.casesOn <;> induction reply using Except.casesOn <;>
      (delta InTime; infer_instance)
  | enqueue => induction reply using Except.casesOn <;> (delta InTime; infer_instance)
  | _ => delta InTime; infer_instance

instance (e : Event) (log : List Event) : Decidable (Unbroken e log) := by
  induction e using Interleave.Event.casesOn with | mk _ _ _ q reply
  induction q using Stmt.casesOn with
  | outbox q =>
    induction q using OutboxStmt.casesOn <;> induction reply using Except.casesOn <;>
      (delta Unbroken; infer_instance)
  | enqueue | queue_reply =>
    induction reply using Except.casesOn <;> (delta Unbroken; infer_instance)
  | _ => delta Unbroken; infer_instance

instance (submission_id : Uuid) : DecidablePred (MailedOnce submission_id) := fun _ =>
  inferInstanceAs (Decidable (_ ∨ _))

/-- The form of the submission has two addresses. -/
def twoAddresses : Database :=
  { oneEvent with
    forms := Table.empty.insertNew
      { FormRecord.sample with notify_emails := ["ada@example.org", "ben@example.org"] }
    issued := [5] }

/-- The email to the second address is not enqueued, and the event is put back. The next pass begins
with the first address. -/
def startedOver : List Step :=
  [.spawn 0 .dispatch_outbox, .step 0 {}, .step 0 {}, .step 0 {}, .step 0 { id := 30 }, .step 0 {},
    .step 0 {}, .fail 0 .unavailable, .step 0 {}, .pass (seconds 5),
    .spawn 1 .dispatch_outbox, .step 1 {}, .step 1 {}, .step 1 {}, .step 1 { id := 30 }, .step 1 {}]

/-- **Ada is written to twice.** No process stops and no lease runs out. -/
theorem not_mailedOnce : ¬ ∀ w, Reaches .sample anything (World.start twoAddresses) w →
    Throughout InTime w.shared.log → ∀ submission_id, MailedOnce submission_id w.shared.log := by
  intro hall
  have honce := hall _ (Deployment.sample.reaches_play anything startedOver twoAddresses)
    (by decide +kernel) 5
  revert honce
  decide +kernel

/-- A pass fails before the first email; the next one enqueues both. -/
def mailedLater : List Step :=
  [.spawn 0 .dispatch_outbox, .step 0 {}, .fail 0 .unavailable, .step 0 {}, .pass (seconds 5),
    .spawn 1 .dispatch_outbox, .step 1 {}, .step 1 {}, .step 1 {}, .step 1 { id := 30 }, .step 1 {},
    .step 1 {}, .step 1 {}, .step 1 {}, .step 1 {}]

theorem twoAddresses_fit : EventsFit twoAddresses where
  numbered := by decide
  one_event := by decide

/-- Both addresses are written to, and nothing is promised in vain. -/
theorem mailedOnce_mailedLater :
    let s := (Deployment.sample.play anything mailedLater twoAddresses).shared
    mailed 5 s.log = [⟨"ada@example.org", 5⟩, ⟨"ben@example.org", 5⟩] ∧
      ∀ submission_id, MailedOnce submission_id s.log :=
  ⟨by decide +kernel, mailedOnce_of_reaches twoAddresses_fit (by decide)
    (Deployment.sample.reaches_play anything mailedLater twoAddresses) (by decide +kernel)
    (by decide +kernel)⟩

end SubmitSnap
