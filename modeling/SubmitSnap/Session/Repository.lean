import SubmitSnap.Database

/-!
# Sessions: the statements on `sessions` and `session_tokens`

The statements of the rotation take the locks of the rows they touch and are applied by the commit.
`UPDATE sessions … WHERE user_id = $1` picks its rows on the snapshot of its start, so it is two
steps: `active_of` is the snapshot, `revoke_rows` the update, which waits for the locks of the rows
that were picked and looks at each of them once more.
-/

namespace SubmitSnap

open Interleave

inductive SessionStmt where
  /-- `INSERT INTO sessions`, in a transaction that began at `now`. -/
  | insert_session (user_id : Uuid) (user_agent ip_address : Option String)
      (expires_at now : Timestamp)
  /-- `INSERT INTO session_tokens`, for a session of the same transaction. -/
  | insert_token (session_id : Uuid) (token_hash : TokenHash) (expires_at now : Timestamp)
  /-- The lookup of a refresh, `FOR UPDATE` on both rows. -/
  | lookup (token_hash : TokenHash)
  /-- `INSERT INTO session_tokens … SELECT … LEAST($3, sessions.expires_at)`. -/
  | insert_replacement (session_id : Uuid) (token_hash : TokenHash) (expires_at now : Timestamp)
  /-- `UPDATE session_tokens` and `UPDATE sessions` by key, inside a transaction. -/
  | lock_token (id : Uuid)
  | lock_session (id : Uuid)
  | is_active (session_id user_id : Uuid)
  | revoke (session_id : Uuid)
  /-- The sessions of an account a revocation will touch, all of them or all but one. -/
  | active_of (user_id : Uuid) (keep : Option Uuid)
  /-- The update of the sessions a revocation has picked. -/
  | revoke_rows (ids : List Uuid) (now : Timestamp)

abbrev SessionStmt.Reply : SessionStmt → Type
  | insert_session _ _ _ _ _ => SessionRecord
  | insert_token _ _ _ _ | insert_replacement _ _ _ _ => SessionToken
  | lookup _ => Option TokenLookup
  | lock_token _ | lock_session _ | revoke _ => Unit
  | is_active _ _ => Bool
  | active_of _ _ => Timestamp × List Uuid
  | revoke_rows _ _ => ℕ

namespace Database

/-- `SET revoked_at = $now … WHERE … AND revoked_at IS NULL`. -/
def revokeSessions (db : Database) (p : SessionRecord → Bool) (now : Timestamp) : Database :=
  { db with
    sessions := db.sessions.updateWhere (fun s => p s && s.revoked_at.isNone)
      (fun s => { s with revoked_at := some now }) fun _ => rfl }

/-- Whether the token table refuses a row with this hash and these dates. -/
def refusesToken (db : Database) (token_hash : TokenHash) (expires_at now : Timestamp) :
    Option Failure :=
  if db.session_tokens.rows.any fun t => t.token_hash == token_hash then
    some (.unique "session_tokens_token_hash_key")
  else if expires_at ≤ now then some (.check "session_tokens_expires_after_created")
  else none

end Database

/-- The joined row of a lookup. -/
def TokenLookup.ofRows (t : SessionToken) (s : SessionRecord) : TokenLookup where
  token_id := t.id
  session_id := s.id
  user_id := s.user_id
  used_at := t.used_at
  token_expires_at := t.expires_at
  session_revoked_at := s.revoked_at
  session_expires_at := s.expires_at

/-- What a statement on the session tables does. -/
def SessionStmt.run (p : ℕ) (c : Choice) (db : Database) :
    (q : SessionStmt) → Option (Database × Except Failure q.Reply)
  | insert_session user_id user_agent ip_address expires_at now =>
    if db.unused c.id && db.free p (.user user_id) .keyShare then
      if !db.users.hasKey user_id then some (db, .error (.foreign_key "sessions_user_id_fkey"))
      else if expires_at ≤ now then some (db, .error (.check "sessions_expires_after_created"))
      else
        some ((db.issue c.id).lock p (.user user_id) .keyShare,
          .ok ⟨c.id, user_id, user_agent, ip_address, now, now, expires_at, none⟩)
    else none
  | insert_token session_id token_hash expires_at now =>
    if db.unused c.id then
      match db.refusesToken token_hash expires_at now with
      | some e => some (db, .error e)
      | none =>
        some (db.issue c.id, .ok ⟨c.id, session_id, token_hash, now, expires_at, none, none⟩)
    else none
  | lookup token_hash =>
    match db.session_tokens.rows.find? fun t => t.token_hash == token_hash with
    | none => some (db, .ok none)
    | some t =>
      match db.sessions.find? t.session_id with
      | none => some (db, .ok none)
      | some s =>
        if db.free p (.session_token t.id) .update && db.free p (.session s.id) .update then
          some ((db.lock p (.session_token t.id) .update).lock p (.session s.id) .update,
            .ok (some (.ofRows t s)))
        else none
  | insert_replacement session_id token_hash expires_at now =>
    match db.sessions.find? session_id with
    | none => some (db, .error .row_not_found)
    | some s =>
      if db.unused c.id then
        match db.refusesToken token_hash (min expires_at s.expires_at) now with
        | some e => some (db, .error e)
        | none =>
          some (db.issue c.id,
            .ok ⟨c.id, session_id, token_hash, now, min expires_at s.expires_at, none, none⟩)
      else none
  | lock_token id =>
    if db.free p (.session_token id) .noKeyUpdate then
      some (db.lock p (.session_token id) .noKeyUpdate, .ok ())
    else none
  | lock_session id =>
    if db.free p (.session id) .noKeyUpdate then
      some (db.lock p (.session id) .noKeyUpdate, .ok ())
    else none
  | is_active session_id user_id =>
    some (db, .ok (db.sessions.rows.any fun s =>
      s.id == session_id && s.user_id == user_id && s.revoked_at.isNone &&
        db.clock < s.expires_at))
  | revoke session_id =>
    if db.free p (.session session_id) .noKeyUpdate then
      some (db.revokeSessions (fun s => s.id == session_id) db.clock, .ok ())
    else none
  | active_of user_id keep =>
    some (db, .ok (db.clock, (db.sessions.rows.filter fun s =>
      s.user_id == user_id && some s.id != keep && s.revoked_at.isNone).map (·.id)))
  | revoke_rows ids now =>
    if ids.all fun id => db.free p (.session id) .noKeyUpdate then
      some (db.revokeSessions (fun s => s.id ∈ ids) now,
        .ok (db.sessions.rows.countP fun s => s.id ∈ ids && s.revoked_at.isNone))
    else none

end SubmitSnap
