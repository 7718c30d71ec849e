import SubmitSnap.Statement

/-!
# Identity: signing in, passwords, single-use links

The account lifecycle, statement by statement. The audit trail is left out: its writes go to a table
nothing here reads, and a failed one is swallowed by the code.
-/

namespace SubmitSnap

open Interleave
open Interleave.Script (ret when mapError result)

/-- The parts of an account a response shows. -/
structure PublicUser where
  id : Uuid
  email : String
  status : UserStatus
  email_verified : Bool
  roles : List RoleName
  created_at : Timestamp
  deriving DecidableEq, Repr

def PublicUser.new (user : UserRecord) (roles : List RoleName) : PublicUser where
  id := user.id
  email := user.email
  status := user.status
  email_verified := user.is_email_verified
  roles := roles
  created_at := user.created_at

namespace IdentityService

variable (d : Deployment)

/-- `PasswordHasher::hash`: Argon2 under a fresh salt. -/
def hash (password : String) : Code IdentityError String := do
  let salt ← ask .generate
  return d.platform.argon2_hash password salt

def upgrade_password_hash (user_id : Uuid) (password : String) : Code IdentityError Unit := do
  match ← result (hash d password) with
  | .error (_ : IdentityError) => return ()
  | .ok password_hash =>
    -- A failed upgrade is only logged.
    let _ ← attempt (.users (.replace_password_hash user_id password_hash))
    return ()

/-- A wrong password: the failure is counted, and may lock the account. -/
def count_failure (user : UserRecord) (now : Timestamp) : Code IdentityError UserRecord := do
  -- A leftover lock that has already expired must not count against this attempt.
  when user.locked_until.isSome (ask (.users (.reset_login_failures user.id)))
  let at_failure ← ask .now
  let lock_expiry ← expires_at at_failure d.config.account_lock_duration_seconds
  let locked ← ask (.users (.record_login_failure user.id d.config.max_failed_login_attempts
    lock_expiry))
  if locked.any (now < ·) then throw .account_locked else throw .invalid_credentials

/-- The right password: the hash may be upgraded, and the failure window is cleared. -/
def accept (user : UserRecord) (password : String) : Code IdentityError UserRecord := do
  when (d.platform.needs_rehash user.password_hash) (upgrade_password_hash d user.id password)
  ask (.users (.record_login_success user.id))
  return user

/-- Verifies a password and updates the account's login state, including lockout. -/
def verify_credentials (email password : String) : Code IdentityError UserRecord := do
  match ← ask (.users (.find_by_email (normalize_email d.platform email))) with
  | none => throw .invalid_credentials
  | some user => do
    let now ← ask .now
    if user.is_locked now then throw .account_locked
    else if user.status = .disabled then throw .account_disabled
    else if !d.platform.argon2_verify password user.password_hash then count_failure d user now
    else if d.config.require_email_verification && !user.is_email_verified then
      throw .email_not_verified
    else accept d user password

/-- `UPDATE sessions SET revoked_at`, for every session of the account or all but one. -/
def revoke_sessions (user_id : Uuid) (keep : Option Uuid) : Code IdentityError ℕ := do
  let (now, ids) ← ask (.sessions (.active_of user_id keep))
  ask (.sessions (.revoke_rows ids now))

/-- Replaces the password and signs out every other device, keeping the caller's session. -/
def change_password (user : UserRecord) (current_password new_password : String)
    (current_session : Uuid) : Code IdentityError Unit := do
  if !d.platform.argon2_verify current_password user.password_hash then throw .invalid_credentials
  else do
    let password_hash ← hash d new_password
    ask (.users (.update_password user.id password_hash))
    let _ ← revoke_sessions user.id (some current_session)
    return ()

/-- Completes a password reset. Every session is revoked, because a reset is the recovery path for
a possibly compromised account. -/
def reset_password (token : SecretToken) (new_password : String) : Code IdentityError Unit := do
  match ← ask (.one_time_tokens (.consume (hash_secret_token token) .password_reset)) with
  | none => throw .invalid_token
  | some user_id => do
    let password_hash ← hash d new_password
    ask (.users (.update_password user_id password_hash))
    let _ ← revoke_sessions user_id none
    -- The address is only read for the audit trail.
    let _ ← ask (.users (.find_by_id user_id))
    return ()

/-- `UPDATE one_time_tokens SET consumed_at`, for the links of one kind that are unconsumed. -/
def invalidate_outstanding (user_id : Uuid) (purpose : OneTimeTokenPurpose) :
    Code IdentityError (List Uuid) := do
  let ids ← ask (.one_time_tokens (.outstanding user_id purpose))
  ask (.one_time_tokens (.invalidate ids))

/-- Replaces the live links of one kind by a new one. -/
def issue_one_time_token (user_id : Uuid) (purpose : OneTimeTokenPurpose) (ttl_seconds : ℕ) :
    Code IdentityError SecretToken := do
  let token ← ask .generate
  let at_issue ← ask .now
  let token_expires_at ← expires_at at_issue ttl_seconds
  transaction fun now => do
    let found ← invalidate_outstanding user_id purpose
    let row ← ask (.one_time_tokens (.issue user_id purpose (hash_secret_token ⟨token⟩)
      token_expires_at now))
    ask (.commit [.consume_tokens found now, .one_time_token row])
    return ⟨token⟩

/-- Starts a password reset. Handing the link to the mail queue is retried and then given up on, and
changes nothing here. -/
def request_password_reset (email : String) : Code IdentityError (Option SecretToken) := do
  match ← ask (.users (.find_by_email (normalize_email d.platform email))) with
  | none => return none
  | some user =>
    if user.status = .disabled then return none
    else do
      let token ← issue_one_time_token user.id .password_reset
        d.config.password_reset_ttl_seconds
      return some token

/-- Re-sends the verification link. -/
def resend_verification (email : String) : Code IdentityError Unit := do
  match ← ask (.users (.find_by_email (normalize_email d.platform email))) with
  | none => return ()
  | some user =>
    if user.is_email_verified || user.status = .disabled then return ()
    else do
      let _ ← issue_one_time_token user.id .email_verification
        d.config.email_verification_ttl_seconds
      return ()

def verify_email (token : SecretToken) : Code IdentityError Unit := do
  match ← ask (.one_time_tokens (.consume (hash_secret_token token) .email_verification)) with
  | none => throw .invalid_token
  | some user_id => do
    ask (.users (.mark_email_verified user_id))
    let _ ← ask (.users (.find_by_id user_id))
    return ()

def roles_for (user_id : Uuid) : Code IdentityError (List RoleName) :=
  ask (.roles (.roles_for_user user_id))

def public_user (user : UserRecord) : Code IdentityError PublicUser := do
  let roles ← roles_for user.id
  return PublicUser.new user roles

/-- Resolves an address to an account. -/
def user_id_by_email (email : String) : Code IdentityError (Option Uuid) := do
  let user ← ask (.users (.find_by_email (normalize_email d.platform email)))
  return user.map (·.id)

end IdentityService

end SubmitSnap
