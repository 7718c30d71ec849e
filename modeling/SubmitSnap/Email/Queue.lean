import SubmitSnap.Interleave.RelyGuarantee

/-!
# The email queue and the loop that drains it

A job is pushed to the tail of a Redis list, popped from its head by a worker, handed to the relay,
and pushed to the dead-letter list if the relay refuses it. Redis is one process and each command is
atomic, but a command is a network call: it can fail before it takes effect, and it can take effect
without its answer arriving. One turn of `run_email_loop` is a request, so a run may contain any
number of turns of any number of workers.

## Two ways to fail

`CallFailure` distinguishes what a caller cannot: a command that was refused has had no effect,
one whose reply was lost has had its whole effect. A pop whose reply is lost has removed the job.
The outcome is a choice of the environment, one for each call, and every combination occurs in
some run. An item in the list need not be a job, since anything else that knows the keys may push
what it likes.

## Main definitions

* `Call` — the commands, and the call to the relay.
* `EmailQueue.enqueue`, `EmailQueue.dequeue`, `EmailQueue.dead_letter`, `run_email_loop`.
-/

namespace SubmitSnap.Email

open Interleave

structure EmailJob where
  to_ : String
  subject : String
  text_body : String
  deriving DecidableEq, Repr

/-- An element of a list: what `serde_json` writes for a job, or a text it does not read as one. -/
inductive Item where
  | encoded (job : EmailJob)
  | other (text : String)
  deriving DecidableEq, Repr

/-- `serde_json::from_str`. -/
def Item.decode : Item → Option EmailJob
  | encoded job => some job
  | other _ => none

@[simp] theorem Item.decode_eq_some {item : Item} {job : EmailJob} :
    item.decode = some job ↔ item = .encoded job := by
  cases item <;> simp [decode]

/-- The lists of a deployment. -/
inductive QueueKey where
  | jobs
  | dead_letter
  deriving DecidableEq, Repr

structure Redis where
  /-- Oldest first. -/
  jobs : List Item
  dead_letter : List Item
  deriving DecidableEq

/-- What a turn of a loop, or a producer, can do to the world. -/
inductive Call where
  | rpush (key : QueueKey) (item : Item)
  | lpop (key : QueueKey)
  /-- `EmailClient::send`. -/
  | send (job : EmailJob)

abbrev Call.Reply : Call → Type
  | rpush _ _ | send _ => Unit
  | lpop _ => Option Item

/-- Why a call fails: it had no effect, or had one and was not answered. -/
inductive CallFailure where
  | refused
  | reply_lost
  deriving DecidableEq, Repr

inductive QueueError where
  | call (cause : CallFailure)
  | undecodable
  deriving DecidableEq, Repr

instance : Raises CallFailure QueueError := ⟨.call⟩

/-- How a call goes. -/
inductive Outcome where
  | answered
  | refused
  | reply_lost
  deriving DecidableEq, Repr

namespace Redis

def push (redis : Redis) (item : Item) : QueueKey → Redis
  | .jobs => { redis with jobs := redis.jobs ++ [item] }
  | .dead_letter => { redis with dead_letter := redis.dead_letter ++ [item] }

def pop (redis : Redis) : QueueKey → Redis × Option Item
  | .jobs => ({ redis with jobs := redis.jobs.tail }, redis.jobs.head?)
  | .dead_letter => ({ redis with dead_letter := redis.dead_letter.tail }, redis.dead_letter.head?)

end Redis

/-- What a call does that takes effect, and its answer. -/
def Call.effect (redis : Redis) : (q : Call) → Redis × q.Reply
  | rpush key item => (redis.push item key, ())
  | lpop key => redis.pop key
  | send _ => (redis, ())

def Call.run (redis : Redis) (q : Call) : Outcome → Redis × Except CallFailure q.Reply
  | .answered => ((q.effect redis).1, .ok (q.effect redis).2)
  | .refused => (redis, .error .refused)
  | .reply_lost => ((q.effect redis).1, .error .reply_lost)

/-- Redis and the relay. Whatever else has the keys may push items of its own. -/
def store : Store Call.Reply CallFailure Redis Outcome Item where
  run _ q c redis := some (q.run redis c)
  abort _ redis := redis
  pass item redis := redis.push item .jobs

abbrev Code (ε α : Type) : Type := Script Call.Reply CallFailure ε α

/-- One call under `?`. -/
abbrev ask (q : Call) : Code QueueError q.Reply := Script.query q

namespace EmailQueue

def enqueue (job : EmailJob) : Code QueueError Unit := ask (.rpush .jobs (.encoded job))

def dequeue : Code QueueError (Option EmailJob) := do
  match ← ask (.lpop .jobs) with
  | none => return none
  | some item =>
    match item.decode with
    | none => throw .undecodable
    | some job => return some job

def dead_letter (job : EmailJob) : Code QueueError Unit :=
  ask (.rpush .dead_letter (.encoded job))

end EmailQueue

/-- One turn of `run_email_loop`. Errors are logged. -/
def run_email_loop : Code QueueError Unit := do
  let next : Except QueueError (Option EmailJob) ← Script.result EmailQueue.dequeue
  match next with
  | .ok (some job) => do
    let sent : Except CallFailure Unit ← Script.attempt (Call.send job)
    match sent with
    | .ok () => return ()
    | .error _ => do
      let _ : Except QueueError Unit ← Script.result (EmailQueue.dead_letter job)
      return ()
  | .ok none => return ()
  | .error _ => return ()

inductive Request where
  | enqueue (job : EmailJob)
  | run_email_loop
  deriving DecidableEq

/-- The code of a request. -/
def Request.code : Request → Code QueueError Unit
  | enqueue job => EmailQueue.enqueue job
  | run_email_loop => Email.run_email_loop

abbrev Event : Type := Interleave.Event Call.Reply CallFailure Redis Request

abbrev State : Type := Interleave.Shared Call.Reply CallFailure Redis Request

abbrev World : Type :=
  Interleave.World Call.Reply CallFailure Redis (fun _ : Request => QueueError) fun _ => Unit

abbrev Regime : Type := Interleave.Regime Call.Reply CallFailure Redis Request

abbrev Step : Type := Interleave.Action Request CallFailure Outcome Item

/-- Producers and workers, of which any may stop at any time. How a call goes is for `Outcome` to
say. -/
def anyRun : Regime where
  spawns _ := True
  admits _ _ _ _ := True
  fails _ := False
  stops := True

abbrev Reaches (w w' : World) : Prop := anyRun.Reaches store Request.code w w'

end SubmitSnap.Email
