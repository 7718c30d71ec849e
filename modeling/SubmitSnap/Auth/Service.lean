import SubmitSnap.Identity.Service

/-!
# Authentication: sessions, rotation, access tokens

An access token is its verified claims: the account and the session it was issued for, and the Unix
time at which it expires. Signing, parsing and the check of the expiry are the JWT library's.
-/

namespace SubmitSnap

open Interleave
open Interleave.Script (ret when mapError result)

/-- The claims of an access token the service reads back. -/
structure AccessClaims where
  sub : Uuid
  sid : Uuid
  exp : ℤ
  deriving DecidableEq, Repr

/-- The clock skew that is tolerated. -/
def LEEWAY_SECONDS : ℕ := 5

/-- Everything a caller needs to establish a client-side session. -/
structure IssuedSession where
  user : PublicUser
  access_token : AccessClaims
  refresh_token : SecretToken
  deriving DecidableEq, Repr

structure AuthenticatedUser where
  user : PublicUser
  session_id : Uuid
  deriving DecidableEq, Repr

namespace SessionRepository

/-- Opens a session and records its first refresh token. -/
def create (user_id : Uuid) (token_hash : TokenHash) (client : ClientInfo)
    (session_expires_at token_expires_at : Timestamp) : Code AuthError Uuid :=
  transaction fun now => do
    let session ← ask (.sessions (.insert_session user_id client.user_agent client.ip_address
      session_expires_at now))
    let token ← ask (.sessions (.insert_token session.id token_hash token_expires_at now))
    ask (.commit [.session session, .session_token token])
    return session.id

/-- The second half of a refresh: the looked-up token is live, so it is exchanged. -/
def rotate (lookup : TokenLookup) (new_hash : TokenHash) (new_expires_at now : Timestamp) :
    Code AuthError RefreshOutcome := do
  let replacement ← ask (.sessions (.insert_replacement lookup.session_id new_hash
    new_expires_at now))
  ask (.sessions (.lock_token lookup.token_id))
  ask (.sessions (.lock_session lookup.session_id))
  ask (.commit [.session_token replacement, .use_token lookup.token_id now replacement.id,
    .touch_session lookup.session_id now])
  return .rotated lookup.user_id lookup.session_id

/-- Exchanges a refresh token for a new one. -/
def refresh (presented_hash new_hash : TokenHash) (new_expires_at : Timestamp) :
    Code AuthError RefreshOutcome :=
  transaction fun tx_now => do
    match ← ask (.sessions (.lookup presented_hash)) with
    | none => return .invalid
    | some lookup =>
      if lookup.used_at.isSome then return .reused lookup.user_id lookup.session_id
      else do
        let now ← ask .now
        if lookup.session_revoked_at.isSome || lookup.token_expires_at ≤ now ||
            lookup.session_expires_at ≤ now then return .invalid
        else rotate lookup new_hash new_expires_at tx_now

end SessionRepository

namespace AuthService

variable (d : Deployment)

/-- `AccessTokens::issue`. -/
def issue (user_id session_id : Uuid) : Code AuthError AccessClaims := do
  let now ← ask .now
  return ⟨user_id, session_id, access_exp (unix_time now) d.config.access_token_ttl_seconds⟩

def start_session (user_id : Uuid) (client : ClientInfo) :
    Code AuthError (AccessClaims × SecretToken) := do
  let token ← ask .generate
  let session_now ← ask .now
  let session_expires_at ← expires_at session_now d.config.refresh_token_ttl_seconds
  let token_now ← ask .now
  let token_expires_at ← expires_at token_now d.config.refresh_token_ttl_seconds
  let session_id ← SessionRepository.create user_id (hash_secret_token ⟨token⟩) client
    session_expires_at token_expires_at
  let access_token ← issue d user_id session_id
  return (access_token, ⟨token⟩)

def login (email password : String) (client : ClientInfo) : Code AuthError IssuedSession := do
  let user ← mapError .identity (IdentityService.verify_credentials d email password)
  let (access_token, refresh_token) ← start_session d user.id client
  let user ← mapError .identity (IdentityService.public_user user)
  return ⟨user, access_token, refresh_token⟩

/-- The account behind a session, if it may still act. -/
def session_user (user_id : Uuid) : Code AuthError PublicUser := do
  match ← mapError .identity (ask (.users (.find_by_id user_id))) with
  | none => throw .invalid_token
  | some user =>
    if user.status = .disabled then throw .invalid_token
    else mapError .identity (IdentityService.public_user user)

/-- Exchanges a refresh token for a new pair. -/
def refresh (refresh_token : SecretToken) : Code AuthError IssuedSession := do
  let replacement ← ask .generate
  let now ← ask .now
  let new_expires_at ← expires_at now d.config.refresh_token_ttl_seconds
  match ← SessionRepository.refresh (hash_secret_token refresh_token)
      (hash_secret_token ⟨replacement⟩) new_expires_at with
  | .rotated user_id session_id => do
    let user ← session_user user_id
    let access_token ← issue d user_id session_id
    return ⟨user, access_token, ⟨replacement⟩⟩
  | .reused _ session_id => do
    -- The whole session family is revoked.
    ask (.sessions (.revoke session_id))
    throw .invalid_token
  | .invalid => throw .invalid_token

def logout (session_id : Uuid) : Code AuthError Unit := ask (.sessions (.revoke session_id))

def logout_all (user_id : Uuid) : Code AuthError Unit := do
  let (now, ids) ← ask (.sessions (.active_of user_id none))
  let _ ← ask (.sessions (.revoke_rows ids now))
  return ()

/-- Resolves an access token to the acting user. The session is re-checked on every request. -/
def authenticate (claims : AccessClaims) : Code AuthError AuthenticatedUser := do
  let now ← ask .now
  if !d.platform.is_current claims.exp (unix_time now) LEEWAY_SECONDS then throw .invalid_token
  else do
    let active ← ask (.sessions (.is_active claims.sid claims.sub))
    if !active then throw .invalid_token
    else do
      let user ← session_user claims.sub
      return ⟨user, claims.sid⟩

end AuthService

end SubmitSnap
