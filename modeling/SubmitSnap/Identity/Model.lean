import SubmitSnap.Shared

/-!
# Identity: accounts, roles, single-use tokens

The rows of `users`, `user_roles` and `one_time_tokens`, and the failures of the two services that
work on them. A row has the columns that the service reads or writes. A password hash is the text
that the platform's hasher made, and a token is stored only as its hash, which has a type of its
own.

Nothing in these types excludes a row that the code could not have written: what the rows of a
running service satisfy is proved of runs, in the modules that come after the services.
-/

namespace SubmitSnap

open Interleave

inductive UserStatus where
  /-- Created but not yet allowed to authenticate because email verification is required. -/
  | pending
  | active
  | disabled
  deriving DecidableEq, Repr

/-- A row of `users`. -/
structure UserRecord where
  id : Uuid
  email : String
  password_hash : String
  status : UserStatus
  email_verified_at : Option Timestamp
  last_login_at : Option Timestamp
  failed_login_attempts : ℕ
  locked_until : Option Timestamp
  password_changed_at : Timestamp
  created_at : Timestamp
  updated_at : Timestamp
  deriving DecidableEq, Repr

namespace UserRecord

def is_locked (user : UserRecord) (now : Timestamp) : Bool :=
  user.locked_until.any fun until_ => now < until_

def is_email_verified (user : UserRecord) : Bool := user.email_verified_at.isSome

end UserRecord

/-- Canonical form used for every storage and lookup path. -/
def normalize_email (P : Platform) (email : String) : String := P.lower (trim email)

/-! ### Roles -/

/-- A role granted to an account. -/
structure RoleName where
  name : String
  deriving DecidableEq, Repr

def RoleName.user : RoleName := ⟨"user"⟩

def RoleName.admin : RoleName := ⟨"admin"⟩

/-- A row of `user_roles`. The static table `roles` only gives the names their ids, so the name
stands for the row it refers to. -/
structure UserRole where
  user_id : Uuid
  role : RoleName
  deriving DecidableEq, Repr

def UserRole.key (r : UserRole) : Uuid × RoleName := (r.user_id, r.role)

/-- The rows of `roles`, seeded by a migration and never written by the service, by name. -/
def role_names : List RoleName := [RoleName.admin, RoleName.user]

/-! ### Single-use tokens -/

inductive OneTimeTokenPurpose where
  | email_verification
  | password_reset
  deriving DecidableEq, Repr

/-- A row of `one_time_tokens`. -/
structure OneTimeToken where
  id : Uuid
  user_id : Uuid
  purpose : OneTimeTokenPurpose
  token_hash : TokenHash
  created_at : Timestamp
  expires_at : Timestamp
  consumed_at : Option Timestamp
  deriving DecidableEq, Repr

/-! ### Errors -/

/-- Failures raised by the identity domain. -/
inductive IdentityError where
  | email_taken
  | invalid_credentials
  | account_disabled
  | account_locked
  | email_not_verified
  | invalid_token
  | not_found
  | last_administrator
  | self_targeted
  | unknown_role (role : String)
  | confirmation_mismatch
  | last_organization_owner (message : String)
  | internal (cause : Failure)
  deriving DecidableEq, Repr

instance : Raises Failure IdentityError := ⟨.internal⟩

/-- SQLSTATE raised by `prevent_orphaned_organization`. -/
def LAST_ORGANIZATION_OWNER : String := "SS001"

/-- Turns the orphan-prevention trigger's refusal into a domain error. -/
def map_delete_error : Failure → IdentityError
  | .raised code message =>
    if code = LAST_ORGANIZATION_OWNER then .last_organization_owner message
    else .internal (.raised code message)
  | cause => .internal cause

/-- Failures of the authentication service. -/
inductive AuthError where
  | invalid_token
  | identity (cause : IdentityError)
  | internal (cause : Failure)
  deriving DecidableEq, Repr

instance : Raises Failure AuthError := ⟨.internal⟩

end SubmitSnap
