import SubmitSnap.Identity.Service

/-!
# Organizations and their membership

Every membership change is one transaction that locks the organization before it reads and holds the
lock until it commits.
-/

namespace SubmitSnap

open Interleave
open Interleave.Script (ret when mapError result)

/-- The caller's standing in an organization. -/
structure Access where
  organization : OrganizationRecord
  member_count : ℕ
  role : OrganizationRole

/-- What a failure to look up the invited address means here. -/
def OrganizationError.ofIdentity : IdentityError → OrganizationError
  | .internal cause => .internal cause
  | _ => .internal .unavailable

namespace OrganizationService

variable (d : Deployment)

def require_manager (role : OrganizationRole) : Code OrganizationError Unit :=
  if role.is_manager then ret () else throw .insufficient_role

def require_reaches (role other : OrganizationRole) : Code OrganizationError Unit :=
  if role.reaches other then ret () else throw .insufficient_role

def require_owner (access : Access) : Code OrganizationError Unit :=
  if access.role.is_owner then ret () else throw .insufficient_role

/-- Resolves the caller's standing. -/
def access (organization_id user_id : Uuid) : Code OrganizationError Access := do
  match ← ask (.organizations (.access organization_id user_id)) with
  | none => throw .not_found
  | some row =>
    match row.role with
    | none => throw .not_a_member
    | some role => return ⟨⟨row.id, row.name, row.created_at⟩, row.member_count, role⟩

/-- Creates an organization and makes the caller its owner. -/
def create (name : String) (actor_id : Uuid) : Code OrganizationError OrganizationRecord :=
  transaction fun now => do
    let organization ← ask (.organizations (.insert_organization (trim name) now))
    let owner ← ask (.organizations (.insert_owner organization.id actor_id now))
    ask (.commit [.organization organization, .organization_member owner])
    return organization

def rename (organization_id : Uuid) (name : String) (actor_id : Uuid) :
    Code OrganizationError Access := do
  let standing ← access organization_id actor_id
  require_manager standing.role
  ask (.organizations (.rename organization_id (trim name)))
  access organization_id actor_id

/-- Removes the organization. Everything that belongs to it cascades away. -/
def delete (organization_id actor_id : Uuid) : Code OrganizationError Unit := do
  let standing ← access organization_id actor_id
  require_owner standing
  let found ← ask (.organizations (.delete organization_id))
  if !found then throw .not_found else return ()

def member (organization_id user_id : Uuid) : Code OrganizationError MemberRecord := do
  match ← ask (.organizations (.member_of organization_id user_id)) with
  | none => throw .member_not_found
  | some m => return m

/-- `OrganizationRepository::lock`. -/
def lock (organization_id : Uuid) : Code OrganizationError Unit := do
  match ← ask (.organizations (.lock organization_id)) with
  | none => throw .not_found
  | some _ => return ()

/-- The caller's role, read inside the transaction that is about to act on it. -/
def locked_role (organization_id user_id : Uuid) : Code OrganizationError OrganizationRole := do
  match ← ask (.organizations (.role_of organization_id user_id)) with
  | none => throw .not_a_member
  | some role => return role

/-- Refuses a change that would leave the organization with no owner. -/
def ensure_another_owner (organization_id : Uuid) : Code OrganizationError Unit := do
  let owners ← ask (.organizations (.owner_count organization_id))
  if owners ≤ 1 then throw .last_owner else return ()

/-- The write of a membership change, guarded by the last-owner rule. -/
def write_role (organization_id user_id : Uuid) (current : Option OrganizationRole)
    (role : OrganizationRole) (now : Timestamp) : Code OrganizationError Unit := do
  when (current.any (·.is_owner)) (ensure_another_owner organization_id)
  let row ← ask (.organizations (.upsert_member organization_id user_id role now))
  ask (.commit [.organization_member row])

/-- The transaction of `add_member`: whether a membership was created, changed, or left alone. -/
def add_member_tx (organization_id user_id : Uuid) (role : OrganizationRole) (actor_id : Uuid) :
    Code OrganizationError (Option OrganizationRole) :=
  transaction fun now => do
    lock organization_id
    let actor_role ← locked_role organization_id actor_id
    require_manager actor_role
    require_reaches actor_role role
    let existing ← ask (.organizations (.role_of organization_id user_id))
    match existing with
    | none => write_role organization_id user_id none role now
    | some current => do
      require_reaches actor_role current
      -- Nothing to change, so nothing to write.
      if current = role then ask (.commit [])
      else write_role organization_id user_id (some current) role now
    return existing

/-- Adds the account with that address, or updates its role when it is already a member. -/
def add_member (organization_id : Uuid) (email : String) (role : OrganizationRole)
    (actor_id : Uuid) : Code OrganizationError (MemberRecord × Bool) := do
  match ← mapError .ofIdentity (IdentityService.user_id_by_email d email) with
  | none => throw .account_not_found
  | some user_id => do
    let existing ← add_member_tx organization_id user_id role actor_id
    let m ← member organization_id user_id
    return (m, existing.isNone)

/-- The transaction of `set_member_role`. -/
def set_member_role_tx (organization_id target_id : Uuid) (role : OrganizationRole)
    (actor_id : Uuid) : Code OrganizationError Unit :=
  transaction fun now => do
    lock organization_id
    let actor_role ← locked_role organization_id actor_id
    require_manager actor_role
    match ← ask (.organizations (.role_of organization_id target_id)) with
    | none => throw .member_not_found
    | some current => do
      require_reaches actor_role current
      require_reaches actor_role role
      if current = role then ask (.commit [])
      else write_role organization_id target_id (some current) role now

def set_member_role (organization_id target_id : Uuid) (role : OrganizationRole)
    (actor_id : Uuid) : Code OrganizationError MemberRecord := do
  set_member_role_tx organization_id target_id role actor_id
  member organization_id target_id

/-- Removes a member, or lets the caller leave when the target is themselves. -/
def remove_member (organization_id target_id actor_id : Uuid) : Code OrganizationError Unit :=
  transaction fun _ => do
    lock organization_id
    let actor_role ← locked_role organization_id actor_id
    match ← ask (.organizations (.role_of organization_id target_id)) with
    | none => throw .member_not_found
    | some current => do
      -- Leaving is always allowed; acting on somebody else needs the standing to do it.
      when (target_id ≠ actor_id)
        (require_manager actor_role >>= fun _ => require_reaches actor_role current)
      when current.is_owner (ensure_another_owner organization_id)
      let _ ← member organization_id target_id
      let _ ← ask (.organizations (.remove_member organization_id target_id))
      ask (.commit [.remove_member organization_id target_id])

end OrganizationService

end SubmitSnap
