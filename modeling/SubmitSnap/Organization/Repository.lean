import SubmitSnap.Database

/-!
# Organizations: the statements on `organizations` and `organization_members`

`lock` is the `SELECT … FOR UPDATE` every membership change starts with. The writes of a membership
change take the lock of the membership row, or of the account a new row refers to, and are applied
by the commit.
-/

namespace SubmitSnap

open Interleave

inductive OrganizationStmt where
  | insert_organization (name : String) (now : Timestamp)
  /-- The first owner of an organization of the same transaction. -/
  | insert_owner (organization_id user_id : Uuid) (now : Timestamp)
  | access (organization_id user_id : Uuid)
  | lock (id : Uuid)
  | role_of (organization_id user_id : Uuid)
  | member_of (organization_id user_id : Uuid)
  | rename (id : Uuid) (name : String)
  | delete (id : Uuid)
  | upsert_member (organization_id user_id : Uuid) (role : OrganizationRole) (now : Timestamp)
  | remove_member (organization_id user_id : Uuid)
  | owner_count (organization_id : Uuid)

abbrev OrganizationStmt.Reply : OrganizationStmt → Type
  | insert_organization _ _ => OrganizationRecord
  | insert_owner _ _ _ | upsert_member _ _ _ _ => OrganizationMember
  | access _ _ => Option AccessRow
  | lock _ => Option Uuid
  | role_of _ _ => Option OrganizationRole
  | member_of _ _ => Option MemberRecord
  | rename _ _ => Unit
  | delete _ | remove_member _ _ => Bool
  | owner_count _ => ℕ

namespace Database

/-- The owners of an organization. -/
def owners (db : Database) (organization_id : Uuid) : List OrganizationMember :=
  db.organization_members.rows.filter fun m =>
    m.organization_id == organization_id && m.role == .owner

end Database

/-- What a statement on the organization tables does. -/
def OrganizationStmt.run (p : ℕ) (c : Choice) (db : Database) :
    (q : OrganizationStmt) → Option (Database × Except Failure q.Reply)
  | insert_organization name now =>
    if db.unused c.id then
      if name.length = 0 ∨ 120 < name.length then
        some (db, .error (.check "organizations_name_length_check"))
      else some (db.issue c.id, .ok ⟨c.id, name, now⟩)
    else none
  | insert_owner organization_id user_id now =>
    if db.free p (.user user_id) .keyShare then
      if db.users.hasKey user_id then
        some (db.lock p (.user user_id) .keyShare, .ok ⟨organization_id, user_id, .owner, now⟩)
      else some (db, .error (.foreign_key "organization_members_user_id_fkey"))
    else none
  | access organization_id user_id =>
    some (db, .ok ((db.organizations.find? organization_id).map fun o =>
      { id := o.id
        name := o.name
        created_at := o.created_at
        member_count := db.organization_members.rows.countP fun m => m.organization_id == o.id
        role := (db.organization_members.find? (organization_id, user_id)).map (·.role) }))
  | lock id =>
    if db.organizations.hasKey id then
      if db.free p (.organization id) .update then
        some (db.lock p (.organization id) .update, .ok (some id))
      else none
    else some (db, .ok none)
  | role_of organization_id user_id =>
    some (db, .ok ((db.organization_members.find? (organization_id, user_id)).map (·.role)))
  | member_of organization_id user_id =>
    some (db, .ok (do
      let m ← db.organization_members.find? (organization_id, user_id)
      let u ← db.users.find? user_id
      return ⟨user_id, u.email, m.role, m.created_at⟩))
  | rename id name =>
    if db.free p (.organization id) .noKeyUpdate then
      if db.organizations.hasKey id ∧ (name.length = 0 ∨ 120 < name.length) then
        some (db, .error (.check "organizations_name_length_check"))
      else
        some ({ db with
          organizations := db.organizations.updateWhere (fun o => o.id == id)
            (fun o => { o with name := name }) fun _ => rfl }, .ok ())
    else none
  | delete id =>
    -- The cascade needs every row it removes, so it waits for whoever holds one.
    if db.free p (.organization id) .update &&
        (db.organization_members.rows.all fun m =>
          m.organization_id != id || db.free p (.organization_member id m.user_id) .update) &&
        (db.forms.rows.all fun f => f.organization_id != id || db.free p (.form f.id) .update) &&
        (db.file_uploads.rows.all fun u =>
          u.organization_id != id || db.free p (.file_upload u.id) .update) then
      some (db.cascadeOrganization id, .ok (db.organizations.hasKey id))
    else none
  | upsert_member organization_id user_id role now =>
    match db.organization_members.find? (organization_id, user_id) with
    | some m =>
      if db.free p (.organization_member organization_id user_id) .noKeyUpdate then
        some (db.lock p (.organization_member organization_id user_id) .noKeyUpdate,
          .ok { m with role := role })
      else none
    | none =>
      if db.free p (.user user_id) .keyShare then
        if db.users.hasKey user_id then
          some (db.lock p (.user user_id) .keyShare, .ok ⟨organization_id, user_id, role, now⟩)
        else some (db, .error (.foreign_key "organization_members_user_id_fkey"))
      else none
  | remove_member organization_id user_id =>
    if db.organization_members.hasKey (organization_id, user_id) then
      if db.free p (.organization_member organization_id user_id) .update then
        some (db.lock p (.organization_member organization_id user_id) .update, .ok true)
      else none
    else some (db, .ok false)
  | owner_count organization_id => some (db, .ok (db.owners organization_id).length)

end SubmitSnap
