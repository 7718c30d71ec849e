import SubmitSnap.Email.Queue

/-!
# No email is lost between the queue and the relay

A job that was enqueued is in the queue, on the dead-letter list, in the hands of a worker, or was
accepted by the relay. Between the pop and one of the last three nothing but the worker's memory has
it, and nothing puts it back: a worker that stops there takes it along, a dead-letter push that
fails is only logged, and a pop whose answer does not arrive has removed the job all the same.

Jobs have no identity beyond their content, so they are counted.

## The argument

The account of a job is a sum: the copies in the queue, on the dead-letter list, in somebody's
hands and accepted, and those that a call has dropped. No call makes the sum smaller, and it grows
when a job is enqueued. This is one step lemma with one case for each command (`accounted_step`),
and it needs one thing of the code: what is sent or dead-lettered is the job in hand and the only
one, or settling it would take others out of the hands of the same worker. That one turn of the
loop has at most one job in hand is what the logic of this module proves, by following the loop
once.

A copy in the hands of somebody who is no longer there is as good as lost, which is where the
workers come in: who holds a job is running or was stopped (`live_of_holding`), because the loop
does not end with a job in hand. So if no call drops a job and no worker is stopped with one,
every copy that was ever enqueued is in one of the four places.

The condition is about calls and stops and cannot be put on the input: the same job is lost or not
depending on when the process is stopped.

## Main definitions

* `holding` — the jobs the turns of the loop have popped and not settled.
* `NothingLost` — the property.
* `dropped` — what a call loses.

## Main results

* `nothingLost_of_reaches` — no job is lost in a run without such events and without workers that
  stop while they hold one.
* `not_nothingLost` — a worker pops a job and stops.
-/

namespace SubmitSnap.Email

open Interleave

/-- The job that was enqueued, where its producer knows. -/
def enqueued : Event → Option EmailJob
  | ⟨_, .enqueue _, _, .rpush .jobs item, .ok ()⟩ => item.decode
  | _ => none

/-- The job that was accepted by the relay. -/
def accepted : Event → Option EmailJob
  | ⟨_, _, _, .send job, .ok ()⟩ => some job
  | _ => none

/-- The job that was popped without an answer, or refused by the dead-letter list. -/
def dropped : Event → Option EmailJob
  | ⟨_, _, redis, .lpop .jobs, .error .reply_lost⟩ => redis.jobs.head?.bind Item.decode
  | ⟨_, _, _, .rpush .dead_letter item, .error .refused⟩ => item.decode
  | _ => none

/-- The jobs that were popped and neither accepted nor given to the dead-letter list, with the
name of the turn that popped them. The state has no such list: between the pop and the next call a
job is in the memory of a worker and nowhere else, and the trace is the only witness. -/
def holding : List Event → List (ℕ × EmailJob)
  | [] => []
  | ⟨p, _, _, .lpop .jobs, .ok (some (.encoded job))⟩ :: log => (p, job) :: holding log
  | ⟨p, _, _, .send _, .ok ()⟩ :: log | ⟨p, _, _, .rpush .dead_letter _, _⟩ :: log =>
    (holding log).filter (·.1 != p)
  | _ :: log => holding log

/-- Whether the process is still running. -/
def World.live (w : World) (p : ℕ) : Bool :=
  match w.procs p with
  | some ⟨_, some (.call _ _)⟩ => true
  | _ => false

/-- Whether the process was stopped. -/
def World.stopped (w : World) (p : ℕ) : Bool :=
  match w.procs p with
  | some ⟨_, none⟩ => true
  | _ => false

/-- As many copies of a job as were enqueued are queued, dead-lettered, held by a live worker, or
accepted. -/
def NothingLost (w : World) : Prop :=
  ∀ job, (w.shared.log.filterMap enqueued).count job ≤
    w.shared.db.jobs.count (.encoded job) + w.shared.db.dead_letter.count (.encoded job) +
      ((holding w.shared.log).filter fun h => w.live h.1).countP (·.2 == job) +
      (w.shared.log.filterMap accepted).count job

/-- No call has dropped a job, and no worker has stopped with one in its hands. -/
structure Unharmed (w : World) : Prop where
  calls : ∀ e ∈ w.shared.log, dropped e = none
  stops : ∀ h ∈ holding w.shared.log, w.stopped h.1 = false

section Accounting

variable {p : ℕ} {r : Request} {q : Call} {x : Except CallFailure q.Reply} {s s' : State}
  {job : EmailJob}

/-- The copies of a job that are accounted for, with those that were dropped. This is the quantity
that no call makes smaller: a pop moves a copy from the queue into the hands, a send from the
hands to the relay, a dead-letter push to its list, and what goes wrong with any of them is
counted as dropped. -/
def accounted (job : EmailJob) (s : State) : ℕ :=
  s.db.jobs.count (.encoded job) + s.db.dead_letter.count (.encoded job) +
    (holding s.log).countP (·.2 == job) + (s.log.filterMap accepted).count job +
    (s.log.filterMap dropped).count job

/-- What `p` holds. -/
def Holding (p : ℕ) (jobs : List EmailJob) (log : List Event) : Prop :=
  ((holding log).filter (·.1 == p)).map (·.2) = jobs

/-- What has to hold when a call is made: what is sent or dead-lettered is the one job in hand,
and nobody pops from the dead-letter list. -/
def CallPre (p : ℕ) (s : State) : Call → Prop
  | .send job => Holding p [job] s.log
  | .rpush .dead_letter item => ∃ job, item = .encoded job ∧ Holding p [job] s.log
  | .lpop .dead_letter => False
  | _ => True

/-- A job that is settled leaves the hands it was in. -/
theorem count_settled {log : List Event} {j job₀ : EmailJob} (h : Holding p [job₀] log) :
    (holding log).countP (·.2 == j) =
      ((holding log).filter (·.1 != p)).countP (·.2 == j) + [job₀].count j := by
  rw [List.countP_eq_countP_filter_add (holding log) (·.2 == j) (·.1 == p), ← h, List.count,
    List.countP_map, Nat.add_comm]
  rfl

theorem count_filterMap_cons {f : Event → Option EmailJob} {e : Event} {log : List Event} :
    ((e :: log).filterMap f).count job =
      (log.filterMap f).count job + if f e = some job then 1 else 0 := by
  cases hf : f e with
  | none => simp [hf]
  | some job' =>
    rw [List.filterMap_cons_some hf, List.count_cons]
    simp

/-- What one event adds to the account is enough to look at. -/
theorem accounted_cons {db : Redis} {e : Event}
    (h : s.db.jobs.count (.encoded job) + s.db.dead_letter.count (.encoded job) +
        (holding s.log).countP (·.2 == job) + (if enqueued e = some job then 1 else 0) ≤
      db.jobs.count (.encoded job) + db.dead_letter.count (.encoded job) +
        (holding (e :: s.log)).countP (·.2 == job) + (if accepted e = some job then 1 else 0) +
        (if dropped e = some job then 1 else 0)) :
    accounted job s + (if enqueued e = some job then 1 else 0) ≤
      accounted job ⟨db, e :: s.log⟩ := by
  simp only [accounted, count_filterMap_cons]
  omega

/-- **The account**: no call makes a copy of a job disappear, and an enqueued one is a new one. -/
theorem accounted_step {j : EmailJob} (hpre : CallPre p s q)
    (h : anyRun.Effect store p r q s x s') :
    accounted j s + (if enqueued ⟨p, r, s.db, q, x⟩ = some j then 1 else 0) ≤ accounted j s' := by
  cases h with
  | fail hfails => exact hfails.elim
  | @run c db x _ hrun =>
    simp only [store, Option.some.injEq] at hrun
    refine accounted_cons ?_
    cases q with
    | rpush key item =>
      cases key with
      | jobs =>
        -- The new item may be an enqueued job, and it is in the list.
        cases c <;> cases hrun <;> cases r <;>
          simp [enqueued, accepted, dropped, holding, Call.effect, Redis.push, List.count_singleton]
        omega
      | dead_letter =>
        obtain ⟨job₀, rfl, hheld⟩ := hpre
        have hcount := count_settled (j := j) hheld
        cases c <;> cases hrun <;>
          simp [enqueued, accepted, dropped, holding, Call.effect, Redis.push, hcount,
            List.count_singleton]
        all_goals omega
    | lpop key =>
      cases key with
      | dead_letter => exact hpre.elim
      | jobs =>
        cases c <;> cases hrun
        · -- The head of the list is in the hands of `p`, if it is a job.
          rcases hjobs : s.db.jobs with _ | ⟨_ | _, rest⟩ <;>
            simp [enqueued, accepted, dropped, holding, Call.effect, Redis.pop, hjobs,
              List.count_cons, List.countP_cons]
          omega
        · simp [enqueued, accepted, dropped, holding]
        · -- The head of the list is dropped.
          rcases hjobs : s.db.jobs with _ | ⟨_ | _, rest⟩ <;>
            simp [enqueued, accepted, dropped, holding, Call.effect, Redis.pop, hjobs,
              List.count_cons]
          omega
    | send job₀ =>
      have hcount := count_settled (j := j) hpre
      cases c <;> cases hrun <;>
        simp [enqueued, accepted, dropped, holding, Call.effect, hcount, List.count_singleton]
      omega

/-- The whole run: what was enqueued is accounted for. -/
def Accounted (s : State) : Prop :=
  ∀ job, (s.log.filterMap enqueued).count job ≤ accounted job s

theorem accounted_of_effect (hpre : CallPre p s q) (hs : Accounted s)
    (h : anyRun.Effect store p r q s x s') : Accounted s' := by
  intro job
  have hstep := accounted_step (j := job) hpre h
  have hle := hs job
  rw [h.log_eq, count_filterMap_cons]
  omega

end Accounting

/-! ### One job at a time -/

section Hands

variable {p : ℕ} {r : Request} {s s' : State} {jobs : List EmailJob} {log : List Event} {e : Event}

/-- What the others do leaves the hands of `p` alone. -/
theorem Holding.cons_of_ne (h : Holding p jobs log) (hne : e.pid ≠ p) :
    Holding p jobs (e :: log) := by
  have hsame : (holding (e :: log)).filter (·.1 == p) = (holding log).filter (·.1 == p) := by
    have hkept : ∀ p', p' ≠ p → ((holding log).filter (·.1 != p')).filter (·.1 == p) =
        (holding log).filter (·.1 == p) := by
      intro p' hp'
      rw [List.filter_filter]
      refine List.filter_congr fun h _ => ?_
      by_cases hp : h.1 = p
      · simp [hp, Ne.symm hp']
      · simp [hp]
    conv_lhs => unfold holding
    split
    · next heq => cases heq
    · next heq =>
      cases heq
      simp [hne]
    · next heq =>
      cases heq
      exact hkept _ hne
    · next heq =>
      cases heq
      exact hkept _ hne
    · next heq =>
      cases heq
      rfl
  rw [Holding, hsame]
  exact h

theorem Holding.of_others (h : Holding p jobs s.log) (hothers : Others p s s') :
    Holding p jobs s'.log := by
  obtain ⟨new, hnew, hne⟩ := hothers
  rw [hnew]
  clear hnew
  induction new with
  | nil => exact h
  | cons e new ih =>
    exact (ih fun e' he' => hne e' (List.mem_cons_of_mem _ he')).cons_of_ne
      (hne e List.mem_cons_self)

/-- One who has done nothing holds nothing. -/
theorem holding_nil_of_fresh (h : ∀ e ∈ log, e.pid ≠ p) : Holding p [] log := by
  induction log with
  | nil => rfl
  | cons e log ih =>
    exact (ih fun e' he' => h e' (List.mem_cons_of_mem _ he')).cons_of_ne (h e List.mem_cons_self)

theorem not_mem_holding (h : Holding p [] log) (job : EmailJob) : (p, job) ∉ holding log := by
  intro hmem
  have hfilter : (p, job) ∈ (holding log).filter (·.1 == p) := List.mem_filter.mpr ⟨hmem, by simp⟩
  rw [List.map_eq_nil_iff.mp h] at hfilter
  cases hfilter

/-- A settled job has left the hands of `p`. -/
theorem holding_settled :
    ((((holding log).filter (·.1 != p)).filter (·.1 == p)).map (·.2)) = [] := by
  rw [List.filter_filter, List.map_eq_nil_iff, List.filter_eq_nil_iff]
  intro h _
  by_cases hp : h.1 = p <;> simp [hp]

/-- The logic of the loop: nothing is promised but that a job in hand is the one that is sent. -/
def emailLogic : Logic anyRun store where
  inv _ := True
  rely _ _ _ := True
  pre p _ q s := CallPre p s q
  rely_refl _ _ := trivial
  rely_trans _ _ := trivial
  sound _ _ _ := ⟨trivial, fun _ _ => trivial⟩
  stop_sound _ _ := ⟨trivial, fun _ _ => trivial⟩
  pass_sound _ := ⟨trivial, fun _ => trivial⟩

/-- What a pop puts into the hands of its turn. -/
def popped : Except QueueError (Option EmailJob) → List EmailJob
  | .ok (some job) => [job]
  | _ => []

theorem wp_dequeue (h : Holding p [] s.log) : emailLogic.wp p r EmailQueue.dequeue
    (fun y s' => Holding p (popped y) s'.log) s := by
  refine Logic.wp_query_bind fun s₁ he₁ => ⟨trivial, fun found s₂ hx₂ _ => ?_,
    fun e s₂ hx₂ _ s₃ he₃ => ?_⟩
  · have h₁ := h.of_others he₁.others
    have hlog := hx₂.log_eq
    cases found with
    | none =>
      refine fun s₃ he₃ => Holding.of_others ?_ he₃.others
      rw [hlog]
      exact h₁
    | some item =>
      cases item with
      | other text =>
        refine fun s₃ he₃ => Holding.of_others ?_ he₃.others
        rw [hlog]
        exact h₁
      | encoded job =>
        refine fun s₃ he₃ => Holding.of_others ?_ he₃.others
        rw [hlog, Holding, holding, List.filter_cons_of_pos (by simp), List.map_cons]
        exact congrArg _ h₁
  · refine Holding.of_others ?_ he₃.others
    rw [hx₂.log_eq]
    exact h.of_others he₁.others

/-- A turn of the loop ends with empty hands. -/
theorem wp_run_email_loop (h : Holding p [] s.log) :
    emailLogic.wp p r run_email_loop (fun _ s' => Holding p [] s'.log) s := by
  have hdequeue : emailLogic.wp p r
      (Script.result EmailQueue.dequeue : Code QueueError (Except QueueError (Option EmailJob)))
      (fun y s' => match y with
        | .ok next => Holding p (popped next) s'.log
        | .error _ => Holding p [] s'.log) s :=
    Logic.wp_result (wp_dequeue h)
  refine Logic.wp_bind trivial hdequeue (fun next s₁ _ hheld => ?_) fun _ _ _ h => h
  rcases next with e | _ | job
  · exact fun s₂ he₂ => Holding.of_others hheld he₂.others
  · exact fun s₂ he₂ => Holding.of_others hheld he₂.others
  · refine Logic.wp_attempt_bind fun s₂ he₂ => ⟨Holding.of_others hheld he₂.others,
      fun sent s₃ hx₃ _ => ?_⟩
    have hheld₂ : Holding p [job] s₂.log := Holding.of_others hheld he₂.others
    rcases sent with e | _
    · -- The relay has refused, and the dead-letter list may refuse as well.
      have hheld₃ : Holding p [job] s₃.log := by
        rw [hx₃.log_eq]
        exact hheld₂
      have hdead : emailLogic.wp p r
          (Script.result (EmailQueue.dead_letter job) : Code QueueError (Except QueueError Unit))
          (fun _ s' => Holding p [] s'.log) s₃ := by
        refine Logic.wp_result (Logic.wp_query fun s₄ he₄ =>
          ⟨⟨job, rfl, hheld₃.of_others he₄.others⟩, fun _ s₅ hx₅ _ s₆ he₆ => ?_,
            fun _ s₅ hx₅ _ s₆ he₆ => ?_⟩)
        · refine Holding.of_others ?_ he₆.others
          rw [hx₅.log_eq]
          exact holding_settled
        · refine Holding.of_others ?_ he₆.others
          rw [hx₅.log_eq]
          exact holding_settled
      exact Logic.wp_bind trivial hdead (fun _ s₄ _ h₄ s₅ he₅ => h₄.of_others he₅.others)
        fun _ _ _ h => h
    · refine fun s₄ he₄ => Holding.of_others ?_ he₄.others
      rw [hx₃.log_eq]
      exact holding_settled

theorem wp_email_code (h : ∀ e ∈ s.log, e.pid ≠ p) :
    emailLogic.wp p r r.code (fun _ s' => Holding p [] s'.log) s := by
  have hnil : Holding p [] s.log := holding_nil_of_fresh h
  cases r with
  | run_email_loop => exact wp_run_email_loop hnil
  | enqueue job =>
    refine Logic.wp_query fun s₁ he₁ => ⟨trivial, fun _ s₂ hx₂ _ s₃ he₃ => ?_,
      fun _ s₂ hx₂ _ s₃ he₃ => ?_⟩
    · refine Holding.of_others ?_ he₃.others
      rw [hx₂.log_eq]
      exact hnil.of_others he₁.others
    · refine Holding.of_others ?_ he₃.others
      rw [hx₂.log_eq]
      exact hnil.of_others he₁.others

end Hands

section Runs

variable {redis : Redis} {w : World}

theorem safe_of_reaches (h : Reaches (World.start redis) w) :
    emailLogic.Safe (fun p _ _ s => Holding p [] s.log) w :=
  Logic.safe_of_reaches (fun _ _ _ _ _ hfresh => wp_email_code hfresh) (.start trivial) h

/-- What the environment pushes takes nothing away. -/
theorem accounted_pass {s : State} (item : Item) (hs : Accounted s) :
    Accounted { s with db := store.pass item s.db } := by
  intro job
  have hle := hs job
  simp only [accounted, store, Redis.push, List.count_append] at hle ⊢
  omega

theorem accounted_of_reaches (h : Reaches (World.start redis) w) : Accounted w.shared :=
  Logic.inv_of_reaches (fun _ _ _ _ _ hfresh => wp_email_code hfresh) (.start trivial)
    (fun _ => Nat.zero_le _) (fun _ hpre hs h => accounted_of_effect hpre hs h)
    (fun _ hs => hs) (fun hs => accounted_pass _ hs) h

/-- Who holds a job is running, or was stopped. -/
theorem live_of_holding (h : Reaches (World.start redis) w) {held : ℕ × EmailJob}
    (hheld : held ∈ holding w.shared.log) (hstop : w.stopped held.1 = false) :
    w.live held.1 = true := by
  have hsafe := safe_of_reaches h
  obtain ⟨p, job⟩ := held
  have hbusy : ¬ Holding p [] w.shared.log := fun hnil => not_mem_holding hnil job hheld
  simp only [World.live, World.stopped] at hstop ⊢
  rcases hp : w.procs p with _ | ⟨r, _ | code⟩
  · exact absurd (holding_nil_of_fresh (hsafe.fresh p hp)) hbusy
  · rw [hp] at hstop
    cases hstop
  · cases code with
    | call q k => rfl
    | ret a => exact absurd (hsafe.code p r _ hp w.shared (.refl hsafe.inv)) hbusy
    | throw e => exact absurd (hsafe.code p r _ hp w.shared (.refl hsafe.inv)) hbusy

end Runs

/-- **Nothing is lost** in the runs in which no call drops a job and no worker stops with one. -/
theorem nothingLost_of_reaches {redis : Redis} {w : World} (h : Reaches (World.start redis) w)
    (hunharmed : Unharmed w) : NothingLost w := by
  intro job
  have hle := accounted_of_reaches h job
  have hlive : (holding w.shared.log).filter (fun held => w.live held.1) = holding w.shared.log :=
    List.filter_eq_self.mpr fun held hheld =>
      live_of_holding h hheld (hunharmed.stops held hheld)
  have hdropped : w.shared.log.filterMap dropped = [] :=
    List.filterMap_eq_nil_iff.mpr hunharmed.calls
  rw [accounted, hdropped, List.count_nil, Nat.add_zero] at hle
  rw [hlive]
  exact hle

/-! ### A worker that stops

The job is taken off the queue before it is sent. A worker that stops in between takes it along. -/

instance : anyRun.Test where
  spawns _ := inferInstanceAs (Decidable True)
  admits _ _ _ _ := inferInstanceAs (Decidable True)
  fails _ := inferInstanceAs (Decidable False)
  stops := inferInstanceAs (Decidable True)

def receipt : EmailJob := ⟨"ada@example.org", "New submission", "Someone answered."⟩

def reminder : EmailJob := ⟨"ben@example.org", "Reset your password", "Follow the link."⟩

/-- Where a list of steps leads, from empty lists. -/
def World.after (steps : List Step) : World :=
  Interleave.play anyRun store Request.code steps (World.start ⟨[], []⟩)

/-- A worker has popped a job when its process stops. -/
def stoppedInHand : List Step :=
  [.spawn 0 (.enqueue receipt), .step 0 .answered, .spawn 1 .run_email_loop, .step 1 .answered,
    .stop 1]

/-- **A job is lost**: it is in no list, and the only worker that knew it is gone. -/
theorem not_nothingLost : ¬ ∀ w, Reaches (World.start ⟨[], []⟩) w → NothingLost w := by
  intro hall
  have hlost := hall _ (Regime.reaches_play anyRun stoppedInHand (World.start ⟨[], []⟩)) receipt
  revert hlost
  decide +kernel

/-- One job is accepted; the other is refused by the relay, after a pop that was not carried out. -/
def acceptedAndRefused : List Step :=
  [.spawn 0 (.enqueue receipt), .step 0 .answered, .spawn 1 (.enqueue reminder), .step 1 .answered,
    .spawn 2 .run_email_loop, .step 2 .answered, .spawn 3 .run_email_loop, .step 3 .refused,
    .step 2 .answered, .spawn 4 .run_email_loop, .step 4 .answered, .step 4 .refused,
    .step 4 .answered]

theorem nothingLost_acceptedAndRefused :
    (World.after acceptedAndRefused).shared.db = ⟨[], [.encoded reminder]⟩ ∧
      NothingLost (World.after acceptedAndRefused) :=
  ⟨by decide +kernel, nothingLost_of_reaches (Regime.reaches_play anyRun acceptedAndRefused _)
    ⟨by decide +kernel, by decide +kernel⟩⟩

end SubmitSnap.Email
