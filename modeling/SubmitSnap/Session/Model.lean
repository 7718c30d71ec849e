import SubmitSnap.Shared

/-!
# Sessions and their refresh tokens

A session is one login on one device. Its refresh tokens form a chain: an exchange marks the token
`used_at`, names its successor in `replaced_by`, and leaves the marked row in the table, which is
how a second presentation is told from an unknown token. The outcome of an exchange is therefore a
type of three cases, and the service answers the last two alike.
-/

namespace SubmitSnap

/-- What the service keeps of the caller: the request's address and browser. -/
structure ClientInfo where
  ip_address : Option String
  user_agent : Option String
  deriving DecidableEq, Repr

/-- A row of `sessions`: one login on one device. -/
structure SessionRecord where
  id : Uuid
  user_id : Uuid
  user_agent : Option String
  ip_address : Option String
  created_at : Timestamp
  last_used_at : Timestamp
  expires_at : Timestamp
  revoked_at : Option Timestamp
  deriving DecidableEq, Repr

/-- A row of `session_tokens`. `used_at` marks a token that has already been exchanged. -/
structure SessionToken where
  id : Uuid
  session_id : Uuid
  token_hash : TokenHash
  created_at : Timestamp
  expires_at : Timestamp
  used_at : Option Timestamp
  replaced_by : Option Uuid
  deriving DecidableEq, Repr

/-- What the locking lookup of a refresh returns. -/
structure TokenLookup where
  token_id : Uuid
  session_id : Uuid
  user_id : Uuid
  used_at : Option Timestamp
  token_expires_at : Timestamp
  session_revoked_at : Option Timestamp
  session_expires_at : Timestamp
  deriving DecidableEq, Repr

/-- Result of presenting a refresh token. -/
inductive RefreshOutcome where
  /-- The token was valid, has been marked used, and a replacement was issued. -/
  | rotated (user_id session_id : Uuid)
  /-- The token had already been exchanged. -/
  | reused (user_id session_id : Uuid)
  /-- Unknown, revoked, or expired: indistinguishable to the caller. -/
  | invalid
  deriving DecidableEq, Repr

end SubmitSnap
