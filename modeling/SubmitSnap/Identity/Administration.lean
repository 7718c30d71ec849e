import SubmitSnap.Identity.Service

/-!
# Administrator operations over accounts

Status changes and deletions refuse to target the caller; role changes may target the caller, but
only while somebody else still holds the role.
-/

namespace SubmitSnap

open Interleave
open Interleave.Script (ret when mapError result)

namespace IdentityService

variable (d : Deployment)

def load (id : Uuid) : Code IdentityError UserRecord := do
  match ← ask (.users (.find_by_id id)) with
  | none => throw .not_found
  | some user => return user

def account (id : Uuid) : Code IdentityError PublicUser := do
  let user ← load id
  public_user user

/-- Refuses a request that names a role the deployment does not define. -/
def reject_unknown_roles (roles : List RoleName) : Code IdentityError Unit := do
  let known ← ask (.roles .role_names)
  match roles.find? fun role => role ∉ known with
  | some unknown => throw (.unknown_role unknown.name)
  | none => return ()

/-- Refuses a change when `target_id` is the only administrator who can still sign in. -/
def ensure_an_admin_remains (target_id : Uuid) : Code IdentityError Unit := do
  let admins ← ask (.roles .active_admin_ids)
  if admins = [target_id] then throw .last_administrator else return ()

/-- `RoleRepository::replace_for_user`. -/
def replace_for_user (user_id : Uuid) (roles : List RoleName) : Code IdentityError Unit := do
  let removed ← ask (.roles (.replace_scan user_id roles))
  let missing ← ask (.roles (.replace_check user_id roles))
  ask (.roles (.replace_apply user_id removed missing))

/-- `UserRepository::delete`. -/
def delete_user (id : Uuid) : Code IdentityError Bool := do
  match ← attempt (.users (.delete_check id)) with
  | .error e => throw (map_delete_error e)
  | .ok false => return false
  | .ok true =>
    match ← attempt (.users (.delete_apply id)) with
    | .error e => throw (map_delete_error e)
    | .ok found => return found

/-- Enables or disables an account. Disabling also signs it out everywhere. -/
def set_account_status (target_id : Uuid) (status : UserStatus) (actor_id : Uuid) :
    Code IdentityError PublicUser := do
  if target_id = actor_id then throw .self_targeted
  else do
    let found ← ask (.users (.set_status target_id status))
    if !found then throw .not_found
    else do
      when (status = .disabled) (revoke_sessions target_id none >>= fun _ => ret ())
      let _ ← load target_id
      account target_id

/-- Replaces an account's roles with exactly `roles`. -/
def set_account_roles (target_id : Uuid) (roles : List RoleName) :
    Code IdentityError PublicUser := do
  reject_unknown_roles roles
  let before ← roles_for target_id
  when (RoleName.admin ∈ before ∧ RoleName.admin ∉ roles) (ensure_an_admin_remains target_id)
  -- Reading the account first means a missing one is a 404 before anything changes.
  let _ ← load target_id
  replace_for_user target_id roles
  account target_id

/-- Permanently removes an account. -/
def delete_account (target_id : Uuid) (confirm_email : String) (actor_id : Uuid) :
    Code IdentityError Unit := do
  if target_id = actor_id then throw .self_targeted
  else do
    let user ← load target_id
    if normalize_email d.platform confirm_email ≠ user.email then throw .confirmation_mismatch
    else do
      let found ← delete_user target_id
      if !found then throw .not_found else return ()

/-- Adds a role to the account with that address, keeping any it already holds. -/
def grant_role_by_email (email : String) (role : RoleName) : Code IdentityError Uuid := do
  reject_unknown_roles [role]
  match ← ask (.users (.find_by_email (normalize_email d.platform email))) with
  | none => throw .not_found
  | some user => do
    let roles ← roles_for user.id
    replace_for_user user.id (if role ∈ roles then roles else roles ++ [role])
    return user.id

/-- Clears an account's failed-attempt counter and lock. -/
def unlock_account (target_id : Uuid) : Code IdentityError PublicUser := do
  let _ ← load target_id
  ask (.users (.reset_login_failures target_id))
  account target_id

/-- Signs an account out everywhere without changing its status. -/
def revoke_account_sessions (target_id : Uuid) : Code IdentityError ℕ := do
  let _ ← load target_id
  revoke_sessions target_id none

end IdentityService

end SubmitSnap
