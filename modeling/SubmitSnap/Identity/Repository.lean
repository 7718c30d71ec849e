import SubmitSnap.Database

/-!
# Identity: the statements on accounts, roles and single-use tokens

One constructor for each query the repositories of the identity and role modules send, what it
answers, and what it does. An `UPDATE` of one row by its key is a single step: it waits for the
row's lock and then sees the row's latest version. A statement that decides on one snapshot and
writes afterwards is several steps, and the world may change between them: the role replacement,
which picks the rows to delete, then looks for the rows its `INSERT` would duplicate, and shows
neither change before it commits; `DELETE FROM users`, whose trigger looks at the memberships before
the cascade removes any; and the invalidation of an account's links, which waits for the rows of its
snapshot and looks at each of them once more.
-/

namespace SubmitSnap

open Interleave

/-! ### `UserRepository` -/

inductive UserStmt where
  | find_by_email (email : String)
  | find_by_id (id : Uuid)
  | record_login_success (id : Uuid)
  | reset_login_failures (id : Uuid)
  | record_login_failure (id : Uuid) (max_attempts : ℕ) (lock_until : Timestamp)
  | update_password (id : Uuid) (password_hash : String)
  | replace_password_hash (id : Uuid) (password_hash : String)
  | mark_email_verified (id : Uuid)
  | set_status (id : Uuid) (status : UserStatus)
  /-- `DELETE FROM users`: the row is locked and its trigger has run. -/
  | delete_check (id : Uuid)
  /-- `DELETE FROM users`: the row and what cascades from it are gone. -/
  | delete_apply (id : Uuid)

abbrev UserStmt.Reply : UserStmt → Type
  | find_by_email _ | find_by_id _ => Option UserRecord
  | record_login_failure _ _ _ => Option Timestamp
  | set_status _ _ | delete_check _ | delete_apply _ => Bool
  | _ => Unit

namespace Database

/-- `UPDATE users SET … WHERE id = $1`, with the trigger that stamps `updated_at`. -/
def updateUser (db : Database) (id : Uuid) (f : UserRecord → UserRecord)
    (hf : ∀ u, (f u).id = u.id) : Database :=
  { db with
    users := db.users.updateWhere (fun u => u.id == id)
      (fun u => { f u with updated_at := db.clock }) hf }

/-- The organizations `prevent_orphaned_organization` complains about: those the account owns and
nobody else does. -/
def orphaned (db : Database) (user_id : Uuid) : List OrganizationRecord :=
  db.organizations.rows.filter fun o =>
    (db.organization_members.rows.any fun m =>
      m.organization_id == o.id && m.user_id == user_id && m.role.is_owner) &&
    !(db.organization_members.rows.any fun m =>
      m.organization_id == o.id && m.role.is_owner && m.user_id != user_id)

/-- The message the trigger raises. -/
def orphanedMessage (orgs : List OrganizationRecord) : String :=
  "this account is the last owner of: " ++
    String.intercalate ", " ((orgs.map (·.name)).insertionSort (· ≤ ·))

end Database

/-- What a statement on `users` does. -/
def UserStmt.run (P : Platform) (p : ℕ) (db : Database) :
    (q : UserStmt) → Option (Database × Except Failure q.Reply)
  | find_by_email email => some (db, .ok (db.users.rows.find? fun u => P.lower u.email == email))
  | find_by_id id => some (db, .ok (db.users.find? id))
  | record_login_success id =>
    if db.free p (.user id) .noKeyUpdate then
      some (db.updateUser id (fun u =>
        { u with failed_login_attempts := 0, locked_until := none, last_login_at := some db.clock })
        fun _ => rfl, .ok ())
    else none
  | reset_login_failures id =>
    if db.free p (.user id) .noKeyUpdate then
      some (db.updateUser id (fun u =>
        { u with failed_login_attempts := 0, locked_until := none }) fun _ => rfl, .ok ())
    else none
  | record_login_failure id max_attempts lock_until =>
    if db.free p (.user id) .noKeyUpdate then
      let db' := db.updateUser id (fun u =>
        { u with
          failed_login_attempts := u.failed_login_attempts + 1
          locked_until :=
            if min max_attempts i32Max ≤ u.failed_login_attempts + 1 then some lock_until
            else u.locked_until }) fun _ => rfl
      match db'.users.find? id with
      | some u => some (db', .ok u.locked_until)
      | none => some (db', .error .row_not_found)
    else none
  | update_password id password_hash =>
    if db.free p (.user id) .noKeyUpdate then
      some (db.updateUser id (fun u =>
        { u with
          password_hash := password_hash, password_changed_at := db.clock
          failed_login_attempts := 0, locked_until := none }) fun _ => rfl, .ok ())
    else none
  | replace_password_hash id password_hash =>
    if db.free p (.user id) .noKeyUpdate then
      some (db.updateUser id (fun u => { u with password_hash := password_hash }) fun _ => rfl,
        .ok ())
    else none
  | mark_email_verified id =>
    if db.free p (.user id) .noKeyUpdate then
      some (db.updateUser id (fun u =>
        { u with
          email_verified_at := some db.clock
          status := if u.status = .pending then .active else u.status }) fun _ => rfl, .ok ())
    else none
  | set_status id status =>
    if db.free p (.user id) .noKeyUpdate then
      some (db.updateUser id (fun u => { u with status := status }) fun _ => rfl,
        .ok (db.users.hasKey id))
    else none
  | delete_check id =>
    if db.free p (.user id) .update then
      if db.users.hasKey id then
        match db.orphaned id with
        | [] => some (db.lock p (.user id) .update, .ok true)
        | orgs => some (db, .error
            (.raised LAST_ORGANIZATION_OWNER (Database.orphanedMessage orgs)))
      else some (db, .ok false)
    else none
  | delete_apply id =>
    -- The cascade needs every row it removes, so it waits for whoever holds one.
    if db.free p (.user id) .update &&
        (db.organization_members.rows.all fun m =>
          m.user_id != id || db.free p (.organization_member m.organization_id id) .update) &&
        (db.sessions.rows.all fun s => s.user_id != id || db.free p (.session s.id) .update) then
      some ((db.cascadeUser id).unlock p, .ok (db.users.hasKey id))
    else none

/-! ### `RoleRepository` -/

inductive RoleStmt where
  | role_names
  | roles_for_user (user_id : Uuid)
  | active_admin_ids
  /-- `replace_for_user`: the rows of its snapshot whose role is not desired. -/
  | replace_scan (user_id : Uuid) (roles : List RoleName)
  /-- `replace_for_user`: the desired roles the `INSERT … ON CONFLICT DO NOTHING` finds no row
  of. -/
  | replace_check (user_id : Uuid) (roles : List RoleName)
  /-- `replace_for_user`: the rows of the snapshot go and those roles come, as it commits. -/
  | replace_apply (user_id : Uuid) (removed missing : List RoleName)

abbrev RoleStmt.Reply : RoleStmt → Type
  | role_names | roles_for_user _ | replace_scan _ _ | replace_check _ _ => List RoleName
  | active_admin_ids => List Uuid
  | replace_apply _ _ _ => Unit

namespace Database

/-- Whether the account holds the role. -/
def hasRole (db : Database) (user_id : Uuid) (role : RoleName) : Bool :=
  db.user_roles.hasKey (user_id, role)

/-- Insert a role row for each of the given roles. -/
def grantAll (db : Database) (user_id : Uuid) : List RoleName → Table UserRole.key
  | [] => db.user_roles
  | role :: roles => (db.grantAll user_id roles).insertNew ⟨user_id, role⟩

end Database

/-- What a statement on `user_roles` does. -/
def RoleStmt.run (p : ℕ) (db : Database) :
    (q : RoleStmt) → Option (Database × Except Failure q.Reply)
  | role_names => some (db, .ok SubmitSnap.role_names)
  | roles_for_user user_id =>
    some (db, .ok (SubmitSnap.role_names.filter (db.hasRole user_id)))
  | active_admin_ids =>
    some (db, .ok (((db.users.rows.filter fun u =>
      u.status == .active && db.hasRole u.id .admin).map (·.id)).insertionSort (· ≤ ·)))
  | replace_scan user_id roles =>
    some (db, .ok (SubmitSnap.role_names.filter fun r => db.hasRole user_id r && r ∉ roles))
  | replace_check user_id roles =>
    some (db, .ok (SubmitSnap.role_names.filter fun r => r ∈ roles && !db.hasRole user_id r))
  | replace_apply user_id removed missing =>
    if missing = [] || db.free p (.user user_id) .keyShare then
      if missing = [] || db.users.hasKey user_id then
        let db := { db with
          user_roles := db.user_roles.deleteWhere fun r =>
            r.user_id == user_id && r.role ∈ removed }
        some ({ db with user_roles := db.grantAll user_id missing }, .ok ())
      else some (db, .error (.foreign_key "user_roles_user_id_fkey"))
    else none

/-! ### `OneTimeTokenRepository` -/

inductive OneTimeTokenStmt where
  /-- `invalidate_outstanding`, inside a transaction: the unconsumed tokens of its snapshot. -/
  | outstanding (user_id : Uuid) (purpose : OneTimeTokenPurpose)
  /-- `invalidate_outstanding`: those rows are locked, and the ones that are unconsumed still are
  the ones it updates. -/
  | invalidate (ids : List Uuid)
  | issue (user_id : Uuid) (purpose : OneTimeTokenPurpose) (token_hash : TokenHash)
      (expires_at now : Timestamp)
  | consume (token_hash : TokenHash) (purpose : OneTimeTokenPurpose)

abbrev OneTimeTokenStmt.Reply : OneTimeTokenStmt → Type
  | outstanding _ _ | invalidate _ => List Uuid
  | issue _ _ _ _ _ => OneTimeToken
  | consume _ _ => Option Uuid

/-- What a statement on `one_time_tokens` does. -/
def OneTimeTokenStmt.run (p : ℕ) (c : Choice) (db : Database) :
    (q : OneTimeTokenStmt) → Option (Database × Except Failure q.Reply)
  | outstanding user_id purpose =>
    some (db, .ok ((db.one_time_tokens.rows.filter fun t =>
      t.user_id == user_id && t.purpose == purpose && t.consumed_at.isNone).map (·.id)))
  | invalidate ids =>
    if ids.all fun id => db.free p (.one_time_token id) .noKeyUpdate then
      some (db.lockAll p .noKeyUpdate (ids.map .one_time_token),
        .ok (ids.filter fun id =>
          db.one_time_tokens.rows.any fun t => t.id == id && t.consumed_at.isNone))
    else none
  | issue user_id purpose token_hash expires_at now =>
    if db.unused c.id && db.free p (.user user_id) .keyShare then
      if !db.users.hasKey user_id then
        some (db, .error (.foreign_key "one_time_tokens_user_id_fkey"))
      else if db.one_time_tokens.rows.any fun t => t.token_hash == token_hash then
        some (db, .error (.unique "one_time_tokens_token_hash_key"))
      else if expires_at ≤ now then
        some (db, .error (.check "one_time_tokens_expires_after_created"))
      else
        some ((db.issue c.id).lock p (.user user_id) .keyShare,
          .ok ⟨c.id, user_id, purpose, token_hash, now, expires_at, none⟩)
    else none
  | consume token_hash purpose =>
    match db.one_time_tokens.rows.find? fun t =>
      t.token_hash == token_hash && t.purpose == purpose && t.consumed_at.isNone &&
        db.clock < t.expires_at with
    | none => some (db, .ok none)
    | some t =>
      if db.free p (.one_time_token t.id) .noKeyUpdate then
        some ({ db with
          one_time_tokens := db.one_time_tokens.updateWhere (fun t' => t'.id == t.id)
            (fun t' => { t' with consumed_at := some db.clock }) fun _ => rfl },
          .ok (some t.user_id))
      else none

end SubmitSnap
