import SubmitSnap.Identity.Model

/-!
# Organizations and their members

An organization is its row and its memberships; there is no other record of who owns it. A role
orders accounts by `reaches`, which the service asks before it changes a membership, while the two
lookups of this module are the joins that the handlers read from: a membership with its account,
and an organization with the caller's role in it.
-/

namespace SubmitSnap

open Interleave

/-- A member's standing inside one organization. -/
inductive OrganizationRole where
  | owner
  | admin
  | member
  deriving DecidableEq, Repr

namespace OrganizationRole

/-- Whether an account holding this role may reach an account holding `other`. -/
def reaches : OrganizationRole → OrganizationRole → Bool
  | owner, _ => true
  | admin, other => other == admin || other == member
  | member, _ => false

def is_manager (role : OrganizationRole) : Bool := role == owner || role == admin

def is_owner (role : OrganizationRole) : Bool := role == owner

end OrganizationRole

/-- A row of `organizations`. -/
structure OrganizationRecord where
  id : Uuid
  name : String
  created_at : Timestamp
  deriving DecidableEq, Repr

/-- A row of `organization_members`. -/
structure OrganizationMember where
  organization_id : Uuid
  user_id : Uuid
  role : OrganizationRole
  created_at : Timestamp
  deriving DecidableEq, Repr

def OrganizationMember.key (m : OrganizationMember) : Uuid × Uuid := (m.organization_id, m.user_id)

/-- A membership joined with its account. -/
structure MemberRecord where
  user_id : Uuid
  email : String
  role : OrganizationRole
  joined_at : Timestamp
  deriving DecidableEq, Repr

/-- A row of the access lookup; no role means that the caller is not a member. -/
structure AccessRow where
  id : Uuid
  name : String
  created_at : Timestamp
  member_count : ℕ
  role : Option OrganizationRole
  deriving DecidableEq, Repr

inductive OrganizationError where
  | not_found
  | not_a_member
  | insufficient_role
  | last_owner
  | account_not_found
  | member_not_found
  | internal (cause : Failure)
  deriving DecidableEq, Repr

instance : Raises Failure OrganizationError := ⟨.internal⟩

end SubmitSnap
