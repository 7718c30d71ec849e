import SubmitSnap.Interleave.RelyGuarantee
import SubmitSnap.Identity.Repository
import SubmitSnap.Session.Repository
import SubmitSnap.Organization.Repository
import SubmitSnap.Form.Repository
import SubmitSnap.Webhook.Repository

/-!
# Statements: everything a request can do to the world

The queries of all repositories, the ends of a transaction, the bucket, the queue, the clock and
the random generator, as one type with one interpretation. `store` is the `Interleave.Store` the
whole model runs on.

A statement that fails has no effect and ends the transaction it belongs to, and so does a process
that stops: in both cases the locks go and nothing that was not committed remains. The environment
does one thing, which is to let time pass.

Handing a job to the email queue is two statements. The queue is another server, and there is
nothing like a transaction around the command: once it has taken effect its answer can still get
lost, and then the caller is told of a failure while the job is in the queue.

## Which statement does what

A statement is what the store executes as a whole, with everything the surrounding Rust decides
before the query is sent already decided: `run` gets values and not requests. Its reply is what
the code sees, and an error that the code tells apart (a unique index, a foreign key, a `CHECK`)
is a reply and not a failure of the machine. `Choice` settles what a statement leaves open: the
identifier it generates, the keys, the order of equals.

`none` is for a statement that has to wait for a lock. Nothing is recorded then, and it may go
ahead as soon as the lock is released.
-/

namespace SubmitSnap

open Interleave

inductive Stmt where
  | users (q : UserStmt)
  | roles (q : RoleStmt)
  | one_time_tokens (q : OneTimeTokenStmt)
  | sessions (q : SessionStmt)
  | organizations (q : OrganizationStmt)
  | forms (q : FormStmt)
  | submissions (q : SubmissionStmt)
  | uploads (q : UploadStmt)
  | webhooks (q : WebhookStmt)
  | outbox (q : OutboxStmt)
  /-- `BEGIN`; the answer is what `NOW()` means until the end of the transaction. -/
  | begin_tx
  | commit (writes : List Write)
  /-- What dropping a transaction does, once it has been committed nothing. -/
  | rollback
  /-- `Utc::now()`. -/
  | now
  /-- A random number nobody has seen before: an id, a salt, an opaque token. -/
  | generate
  /-- A new object key, or a new public id. -/
  | generate_key
  /-- Whether a rate limiter lets a key through. -/
  | check_key (key : Uuid)
  /-- A streamed write of an object is opened. -/
  | begin_upload (key : String)
  /-- More bytes of it, once there is capacity for another part. -/
  | write_part (key : String) (bytes : List ℕ)
  /-- All its parts have arrived. -/
  | flush_parts (key : String)
  /-- The write is complete, and the object is there. -/
  | put_object (key : String)
  /-- A write that is given up. -/
  | abort_upload (key : String)
  | delete_object (key : String)
  /-- `RPUSH`: the job is in the queue, and the answer is on its way. -/
  | enqueue (job : EmailJob)
  /-- The answer to it, which may get lost. -/
  | queue_reply (job : EmailJob)
  /-- A signed HTTP request to a receiver: its status, or why there was no answer. -/
  | post (delivery : Uuid) (url : String)

abbrev Stmt.Reply : Stmt → Type
  | users q => q.Reply
  | roles q => q.Reply
  | one_time_tokens q => q.Reply
  | sessions q => q.Reply
  | organizations q => q.Reply
  | forms q => q.Reply
  | submissions q => q.Reply
  | uploads q => q.Reply
  | webhooks q => q.Reply
  | outbox q => q.Reply
  | begin_tx | now => Timestamp
  | generate => ℕ
  | generate_key => String
  | check_key _ => Bool
  | post _ _ => Except String ℕ
  | commit _ | rollback | begin_upload _ | write_part _ _ | flush_parts _ | put_object _
  | abort_upload _ | delete_object _ | enqueue _ | queue_reply _ => Unit

/-- What a statement does. -/
def Stmt.run (P : Platform) (p : ℕ) (c : Choice) (db : Database) :
    (q : Stmt) → Option (Database × Except Failure q.Reply)
  | users q => q.run P p db
  | roles q => q.run p db
  | one_time_tokens q => q.run p c db
  | sessions q => q.run p c db
  | organizations q => q.run p c db
  | forms q => q.run p c db
  | submissions q => q.run p c db
  | uploads q => q.run p c db
  | webhooks q => q.run p c db
  | outbox q => q.run db
  | begin_tx => some (db, .ok db.clock)
  | commit writes => some ((Write.applyAll db writes).unlock p, .ok ())
  | rollback => some (db.unlock p, .ok ())
  | now => some (db, .ok db.clock)
  | generate => if db.unused c.id then some (db.issue c.id, .ok c.id) else none
  | generate_key =>
    if c.text ∈ db.issued_keys then none
    else some ({ db with issued_keys := c.text :: db.issued_keys }, .ok c.text)
  | check_key _ => some (db, .ok (c.id == 0))
  | begin_upload key => some ({ db with multiparts := (key, []) :: db.multiparts }, .ok ())
  | write_part key bytes =>
    some ({ db with
      multiparts := db.multiparts.map fun m => if m.1 == key then (key, m.2 ++ bytes) else m },
      .ok ())
  | flush_parts _ => some (db, .ok ())
  | put_object key =>
    some ({ db with
      bucket := (key, db.bytes_for key) :: db.bucket
      multiparts := db.multiparts.filter (·.1 != key) }, .ok ())
  | abort_upload key =>
    some ({ db with multiparts := db.multiparts.filter (·.1 != key) }, .ok ())
  | delete_object key => some ({ db with bucket := db.bucket.filter (·.1 != key) }, .ok ())
  | enqueue job => some ({ db with jobs := db.jobs ++ [job] }, .ok ())
  | queue_reply _ => some (db, .ok ())
  | post _ _ =>
    match c.response with
    | some status => some (db, .ok (.ok status))
    | none => some (db, .ok (.error c.text))

/-- The world the statements act on. -/
def store (P : Platform) : Store Stmt.Reply Failure Database Choice ℕ where
  run p q c db := q.run P p c db
  abort p db := db.unlock p
  pass n db := { db with clock := db.clock + n }

/-- Request code. -/
abbrev Code (ε α : Type) : Type := Script Stmt.Reply Failure ε α

/-- One statement under `?`. -/
abbrev ask {ε : Type} [Raises Failure ε] (q : Stmt) : Code ε q.Reply := Script.query q

/-- One statement whose failure the code looks at. -/
abbrev attempt {ε : Type} (q : Stmt) : Code ε (Except Failure q.Reply) := Script.attempt q

/-- `expires_in`, which ends the request where it panics. -/
def expires_at {ε : Type} [Raises Failure ε] (now : Timestamp) (n : ℕ) : Code ε Timestamp :=
  Script.unwrap (Raises.raise Failure.panicked) (deadline now n)

/-- A transaction: what is not committed when the code leaves it, however it leaves it, is rolled
back. -/
def transaction {ε α : Type} [Raises Failure ε] (body : Timestamp → Code ε α) : Code ε α :=
  Script.ensuring .rollback (ask .begin_tx >>= body)

end SubmitSnap
