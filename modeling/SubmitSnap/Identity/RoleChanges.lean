import SubmitSnap.Footprints
import SubmitSnap.Interleave.Alone
import SubmitSnap.Interleave.Serial

/-!
# Role changes that overlap

`set_account_roles` replaces the roles of an account and `grant_role_by_email` adds one, but both
end in the same statement, `replace_for_user`, which makes the roles a given list. The grant has put
the list together from an earlier read. The statement decides which rows go on the snapshot it began
with, and which come when it looks for them. A replacement that lands in between is half undone, or
half remains.

If no replacement is overtaken in what it goes by, the calls are as good as one after the other, in
the order in which their replacements land.

## The argument

A replacement takes three statements: a scan that decides which rows go, a look at which rows are
missing, and the application of both. Only the last changes anything, so it is the landing of its
call, and the order of the landings is the serial order that is claimed. It remains to see that
each landing changes the roles as its call says, in the state it lands in.

For `set` this asks two things of the interval before the landing: no role outside the list has
been added since the scan, or it would stay; no role of the list has been removed since the look,
or it would not come. For `grant` the list itself was made from an earlier read, so no other role
may have been added or removed since then either. These are the clauses of `Overtaken`, one for
each way in which what was read can be out of date; additions of a role that the list names, and
removals of one it does not, are harmless and are not in it. Each clause is a snapshot in the
sense of the library, and the invariant `RolesInv` says how far every snapshot of every process
can still be trusted.

That a call has landed and has returned are two different moments, and a claim about what has
returned has to mention both: hence `RolesSettled`.

## Main definitions

* `RoleChange.apply` — what a call does to the roles of its account.
* `overtakes` — a replacement that lands although another one has changed what it goes by.
* `RolesSerial` — the roles are what a serial order of the calls makes of them.

## Main results

* `rolesSerial_of_reaches` — the law, in the runs without `overtakes`.
* `not_rolesSerial` — two grants, of which one takes back what the other has given.
-/

namespace SubmitSnap

open Interleave
open Interleave.Script

/-! ### The law -/

/-- What a call does to the roles of its account. -/
inductive RoleChange where
  | set (roles : List RoleName)
  | grant (role : RoleName)
  deriving DecidableEq

/-- The roles after the call, when nobody interferes: exactly those named; or those held, and the
one granted. -/
def RoleChange.apply : RoleChange → List RoleName → List RoleName
  | set roles, _ => role_names.filter fun x => x ∈ roles
  | grant role, held => role_names.filter fun x => x ∈ held ∨ x = role

/-- The roles of an account, as `roles_for_user` answers them. -/
def Database.rolesOf (db : Database) (user_id : Uuid) : List RoleName :=
  role_names.filter (db.hasRole user_id)

namespace Request

/-- The change of roles that is asked for. -/
def roleChange : Request → Option RoleChange
  | administer (.set_roles _ roles) _ | as_admin _ (.set_roles _ roles) => some (.set roles)
  | grant_role_by_email _ role => some (.grant role)
  | _ => none

/-- The same, with the account it was made to: a grant answers which one has the address. -/
def changedRoles : (r : Request) → r.Res → Option (Uuid × RoleChange)
  | administer (.set_roles target_id roles) _, _ => some (target_id, .set roles)
  | as_admin _ (.set_roles target_id roles), _ => some (target_id, .set roles)
  | grant_role_by_email _ role, user_id => some (user_id, .grant role)
  | _, _ => none

/-- The calls of the law, and the handlers that read roles. -/
def handlesRoles : Request → Prop
  | administer (.set_roles _ _) _ | as_admin _ (.set_roles _ _) | grant_role_by_email _ _
  | authenticate _ => True
  | _ => False

end Request

/-- The replacement of an account's roles as it commits, and the change it is for. -/
def landing : Event → Option (Uuid × RoleChange)
  | ⟨_, r, _, .roles (.replace_apply user_id _ _), .ok _⟩ =>
    r.roleChange.map fun change => (user_id, change)
  | _ => none

/-- The same, for one account. -/
def landsOn (user_id : Uuid) (e : Event) : Option RoleChange :=
  (landing e).bind fun l => if l.1 = user_id then some l.2 else none

/-- The roles of the account are what its calls, one after another, make of them. -/
def RolesSerial (user_id : Uuid) (db₀ : Database) (w : World) : Prop :=
  ∃ order : List (ℕ × RoleChange), (order.map Prod.fst).Nodup ∧
    (∀ p change, (p, change) ∈ order ↔
      ∃ r a, w.Returned p r a ∧ r.changedRoles a = some (user_id, change)) ∧
    w.shared.db.rolesOf user_id =
      order.foldl (fun held call => call.2.apply held) (db₀.rolesOf user_id)

/-- Every call that has got so far as to change the roles of the account has returned `Ok`. -/
def RolesSettled (user_id : Uuid) (w : World) : Prop :=
  ∀ e ∈ w.shared.log, landsOn user_id e ≠ none → ∃ a, w.Returned e.pid e.req a

/-! ### What a replacement goes by

A replacement is computed from roles that were read before, without a lock. The snapshot remembers
what was read and is outdated by whatever changes the roles after that. -/

/-- `p` takes the snapshot that decides which rows go. -/
def scansRoles (p : ℕ) (user_id : Uuid) : Event → Prop
  | ⟨p', _, _, .roles (.replace_scan user_id' _), .ok _⟩ => p' = p ∧ user_id' = user_id
  | _ => False

/-- `p` looks for the rows its `INSERT` would duplicate. -/
def checksRoles (p : ℕ) (user_id : Uuid) : Event → Prop
  | ⟨p', _, _, .roles (.replace_check user_id' _), .ok _⟩ => p' = p ∧ user_id' = user_id
  | _ => False

/-- `p` reads the roles of the account. -/
def readsRoles (p : ℕ) (user_id : Uuid) : Event → Prop
  | ⟨p', _, _, .roles (.roles_for_user user_id'), .ok _⟩ => p' = p ∧ user_id' = user_id
  | _ => False

/-- The account is given a role it does not hold. -/
def addsRole (user_id : Uuid) (role : RoleName) : Event → Prop
  | ⟨_, _, before, .roles (.replace_apply user_id' _ missing), .ok _⟩ =>
    user_id' = user_id ∧ role ∈ missing ∧ before.hasRole user_id role = false
  | _ => False

/-- The account is deprived of a role it holds. -/
def removesRole (user_id : Uuid) (role : RoleName) : Event → Prop
  | ⟨_, _, before, .roles (.replace_apply user_id' removed _), .ok _⟩ =>
    user_id' = user_id ∧ role ∈ removed ∧ before.hasRole user_id role = true
  | _ => False

/-- Others have changed what `p` goes by: since its snapshot a role it does not name has been added,
or one that it names has been removed since it looked; or, for a grant, another role has been added
or removed since it read them. -/
def Overtaken (p : ℕ) (user_id : Uuid) (log : List Event) : RoleChange → Prop
  | .set roles =>
    (∃ x ∈ role_names, x ∉ roles ∧ ¬ Since (scansRoles p user_id) (addsRole user_id x) log) ∨
      ∃ x ∈ roles, ¬ Since (checksRoles p user_id) (removesRole user_id x) log
  | .grant role =>
    (∃ x ∈ role_names, x ≠ role ∧ ¬ Since (readsRoles p user_id)
      (fun e => addsRole user_id x e ∨ removesRole user_id x e) log) ∨
      ¬ Since (checksRoles p user_id) (removesRole user_id role) log

/-- A replacement lands although it has been overtaken. -/
def overtakes (p : ℕ) (r : Request) (log : List Event) : Stmt → Prop
  | .roles (.replace_apply user_id _ _) => ∃ change ∈ r.roleChange, Overtaken p user_id log change
  | _ => False

/-- The runs in which no replacement is overtaken. Any statement may fail, and any process may
stop. -/
abbrev notOvertaken : Regime :=
  (Regime.free Request.handlesRoles).avoiding fun p r q s => overtakes p r s.log q

/-! ### What the statements do -/

section Events

variable {p : ℕ} {user_id : Uuid} {e : Event}

theorem pid_of_scans (h : scansRoles p user_id e) : e.pid = p := by
  unfold scansRoles at h
  split at h
  · exact h.1
  · exact h.elim

theorem pid_of_checks (h : checksRoles p user_id e) : e.pid = p := by
  unfold checksRoles at h
  split at h
  · exact h.1
  · exact h.elim

theorem pid_of_reads (h : readsRoles p user_id e) : e.pid = p := by
  unfold readsRoles at h
  split at h
  · exact h.1
  · exact h.elim

end Events

section Statement

variable {P : Platform} {p : ℕ} {r : Request} {c : Choice} {q : Stmt} {user_id user_id' : Uuid}
  {x : RoleName} {db db' : Database} {removed missing : List RoleName}

theorem hasKey_grantAll : (db.grantAll user_id missing).hasKey (user_id', x) = true ↔
    db.hasRole user_id' x = true ∨ (user_id' = user_id ∧ x ∈ missing) := by
  induction missing with
  | nil => simp [Database.grantAll, Database.hasRole]
  | cons role roles ih =>
    rw [Database.grantAll, Table.hasKey_insertNew, ih, List.mem_cons]
    constructor
    · rintro (h | h)
      · exact h.imp_right (And.imp_right .inr)
      · cases h
        exact .inr ⟨rfl, .inl rfl⟩
    · rintro (h | ⟨rfl, rfl | hx⟩)
      · exact .inl (.inl h)
      · exact .inr rfl
      · exact .inl (.inr ⟨rfl, hx⟩)

theorem hasRole_congr (h : db'.user_roles = db.user_roles) : db'.hasRole = db.hasRole := by
  funext user_id x
  rw [Database.hasRole, h, Database.hasRole]

/-- **What a replacement does**: the removed roles go, unless they are among the missing, and those
come. -/
theorem hasRole_of_replace
    (h : (RoleStmt.replace_apply user_id removed missing).run p db = some (db', .ok ())) :
    db'.hasRole user_id' x = true ↔
      (db.hasRole user_id' x = true ∧ ¬ (user_id' = user_id ∧ x ∈ removed)) ∨
        (user_id' = user_id ∧ x ∈ missing) := by
  simp only [RoleStmt.run] at h
  (repeat' split at h) <;> cases h
  rw [Database.hasRole, hasKey_grantAll]
  refine or_congr_left ?_
  rw [Database.hasRole, Table.hasKey_iff, Database.hasRole, Table.hasKey_iff]
  simp only [Table.mem_deleteWhere]
  constructor
  · rintro ⟨row, ⟨hrow, hkept⟩, hkey⟩
    refine ⟨⟨row, hrow, hkey⟩, fun hremoved => ?_⟩
    cases hkey
    simp [hremoved] at hkept
  · rintro ⟨⟨row, hrow, hkey⟩, hne⟩
    refine ⟨row, ⟨hrow, ?_⟩, hkey⟩
    cases hkey
    simpa using hne

end Statement

/-! ### What a replacement counts on -/

/-- The calls look at accounts, roles and sessions, and open and end transactions. -/
def Stmt.looksAtAccounts : Stmt → Prop
  | roles .role_names | roles (.roles_for_user _) | roles .active_admin_ids
  | users (.find_by_id _) | users (.find_by_email _) | sessions _ | begin_tx | commit _ | rollback
  | now | generate => True
  | _ => False

/-- `removed` is what `p` has found in its snapshot. -/
def Scanned (p : ℕ) (user_id : Uuid) (roles removed : List RoleName) : List Event → Prop :=
  Own p fun e => scansRoles p user_id e →
    removed = role_names.filter fun x => e.before.hasRole user_id x && x ∉ roles

/-- `missing` is what `p` has found missing. -/
def Checked (p : ℕ) (user_id : Uuid) (roles missing : List RoleName) : List Event → Prop :=
  Own p fun e => checksRoles p user_id e →
    missing = role_names.filter fun x => x ∈ roles && !e.before.hasRole user_id x

/-- The list a grant puts together. -/
theorem mem_of_grant {known : List RoleName} {role y : RoleName} :
    y ∈ (if role ∈ known then known else known ++ [role]) ↔ y ∈ known ∨ y = role := by
  split
  · next hrole => exact ⟨.inl, fun h => h.elim id fun heq => heq ▸ hrole⟩
  · rw [List.mem_append, List.mem_singleton]

/-- Why `roles` is the list: it was asked for, or it is what `p` has read, and the granted role. -/
def Intended (p : ℕ) (r : Request) (user_id : Uuid) (roles : List RoleName) (log : List Event) :
    Prop :=
  r.roleChange = some (.set roles) ∨ ∃ role, r.roleChange = some (.grant role) ∧ role ∈ roles ∧
    Own p (fun e => readsRoles p user_id e → ∀ x ∈ role_names,
      x ∈ roles ↔ e.before.hasRole user_id x = true ∨ x = role) log

/-- What `p` replaces the roles of the account by comes from its own steps, and it does so once. -/
def Replaces (p : ℕ) (r : Request) (user_id : Uuid) (removed missing : List RoleName)
    (log : List Event) : Prop :=
  ∃ roles, Intended p r user_id roles log ∧ Scanned p user_id roles removed log ∧
    Checked p user_id roles missing log ∧ (∀ x ∈ removed, x ∉ roles) ∧
    (∀ x ∈ missing, x ∈ roles) ∧ Own p (fun e => landing e = none) log

/-- The statements of the calls; accounts are not deleted. -/
def RolePre (p : ℕ) (r : Request) (log : List Event) : Stmt → Prop
  | .roles (.replace_apply user_id removed missing) => Replaces p r user_id removed missing log
  | .roles (.replace_scan _ _) | .roles (.replace_check _ _) => True
  | q => q.looksAtAccounts

theorem Stmt.looksAtAccounts.rolePre {q : Stmt} {p : ℕ} {r : Request} {log : List Event}
    (h : q.looksAtAccounts) : RolePre p r log q := by
  unfold RolePre
  split
  · exact h.elim
  · trivial
  · trivial
  · exact h

/-- What holds of accounts that nobody deletes: a snapshot is out of date only by what was added or
removed since, and every replacement that has landed has done what its call is for. -/
structure RolesInv (db₀ : Database) (s : State) : Prop where
  /-- What a scan has found to be removed is out of date only by roles added since. -/
  scanned : ∀ p user_id x, Snapshot (scansRoles p user_id) (addsRole user_id x)
    (fun before now => now.hasRole user_id x = true → before.hasRole user_id x = true) s
  /-- What was found missing is out of date only by roles removed since. -/
  checked : ∀ p user_id x, Snapshot (checksRoles p user_id) (removesRole user_id x)
    (fun before now => now.hasRole user_id x = false → before.hasRole user_id x = false) s
  /-- What a grant has read is out of date only by roles added or removed since. -/
  read : ∀ p user_id x, Snapshot (readsRoles p user_id)
    (fun e => addsRole user_id x e ∨ removesRole user_id x e)
    (fun before now => now.hasRole user_id x = before.hasRole user_id x) s
  /-- The roles are what the landings so far make of the first ones. -/
  serial : ∀ user_id, s.db.rolesOf user_id = (serial (landsOn user_id) s.log).foldl
    (fun held call => call.2.apply held) (db₀.rolesOf user_id)
  once : LandsOnce landing s.log

section Effect

variable {P : Platform} {G : Regime} {p : ℕ} {r : Request} {c : Choice} {q : Stmt}
  {x : Except Failure q.Reply} {user_id : Uuid} {role : RoleName} {s s' : State}
  {db₀ db db' : Database} {removed missing : List RoleName}

theorem Stmt.user_roles_eq (h : q.run P p c db = some (db', x)) (hroles : ∀ q', q ≠ .roles q')
    (hdelete : ∀ id, q ≠ .users (.delete_apply id)) : db'.user_roles = db.user_roles := by
  refine Stmt.footprint .user_roles ?_ h
  cases q with
  | roles q => exact absurd rfl (hroles q)
  | users q =>
    cases q with
    | delete_apply id => exact absurd rfl (hdelete id)
    | _ => rfl
  | _ => rfl

/-- Roles change hands only by replacements. -/
theorem user_roles_of_effect (hpre : RolePre p r s.log q) (h : G.Effect (store P) p r q s x s')
    (hq : ∀ user_id removed missing, q = .roles (.replace_apply user_id removed missing) →
      ∀ a, x ≠ .ok a) : s'.db.user_roles = s.db.user_roles := by
  cases h with
  | fail _ => rfl
  | @run c db' x _ hrun =>
    by_cases hroles : ∃ q', q = .roles q'
    · obtain ⟨q', rfl⟩ := hroles
      cases q' with
      | replace_apply user_id removed missing =>
        simp only [store, Stmt.run, RoleStmt.run] at hrun
        (repeat' split at hrun) <;> cases hrun
        · exact absurd rfl (hq _ _ _ rfl ())
        · rfl
      | role_names | roles_for_user _ | active_admin_ids | replace_scan _ _ | replace_check _ _ =>
        cases hrun
        rfl
    · refine Stmt.user_roles_eq hrun (fun q' heq => hroles ⟨q', heq⟩) fun id heq => ?_
      subst heq
      exact hpre

/-- **How an account comes by a role, and how it loses one.** -/
theorem hasRole_of_effect (user_id : Uuid) (role : RoleName) (hpre : RolePre p r s.log q)
    (h : G.Effect (store P) p r q s x s') :
    (s'.db.hasRole user_id role = true → s.db.hasRole user_id role = true ∨
      addsRole user_id role ⟨p, r, s.db, q, x⟩) ∧
    (s'.db.hasRole user_id role = false → s.db.hasRole user_id role = false ∨
      removesRole user_id role ⟨p, r, s.db, q, x⟩) := by
  by_cases hq : ∃ u removed missing, q = .roles (.replace_apply u removed missing) ∧ ∃ a, x = .ok a
  · obtain ⟨u, removed, missing, rfl, a, rfl⟩ := hq
    obtain ⟨-, c, db, hrun, rfl⟩ := h.of_ok
    have hroles : db.hasRole user_id role = true ↔ _ := hasRole_of_replace hrun
    cases hbefore : s.db.hasRole user_id role with
    | true =>
      refine ⟨fun _ => .inl rfl, fun hlost => .inr ?_⟩
      have hlost : ¬ db.hasRole user_id role = true := by simpa using hlost
      rw [hroles, hbefore] at hlost
      by_contra hnot
      exact hlost (.inl ⟨rfl, fun ⟨hu, hmem⟩ => hnot ⟨hu.symm, hmem, hu ▸ hbefore⟩⟩)
    | false =>
      refine ⟨fun hgained => .inr ?_, fun _ => .inl rfl⟩
      rcases hroles.mp hgained with ⟨hheld, -⟩ | ⟨rfl, hmem⟩
      · cases hbefore.symm.trans hheld
      · exact ⟨rfl, hmem, hbefore⟩
  · have hsame : s'.db.user_roles = s.db.user_roles := user_roles_of_effect hpre h
      fun u removed missing heq a hok => hq ⟨u, removed, missing, heq, a, hok⟩
    rw [hasRole_congr hsame]
    exact ⟨.inl, .inl⟩

/-- Snapshots, checks and reads change no roles. -/
theorem user_roles_of_look (hpre : RolePre p r s.log q) (h : G.Effect (store P) p r q s x s')
    (hlook : (∃ p' u, scansRoles p' u ⟨p, r, s.db, q, x⟩) ∨
      (∃ p' u, checksRoles p' u ⟨p, r, s.db, q, x⟩) ∨
      ∃ p' u, readsRoles p' u ⟨p, r, s.db, q, x⟩) : s'.db.user_roles = s.db.user_roles := by
  refine user_roles_of_effect hpre h fun u removed missing heq => ?_
  subst heq
  rcases hlook with ⟨_, _, h⟩ | ⟨_, _, h⟩ | ⟨_, _, h⟩ <;> exact h.elim

/-- A set that is not overtaken leaves exactly the roles it names. -/
theorem RolesInv.set (hs : RolesInv db₀ s) {roles : List RoleName}
    (hnot : ¬ Overtaken p user_id s.log (.set roles))
    (hscanned : Scanned p user_id roles removed s.log)
    (hchecked : Checked p user_id roles missing s.log) (hremoved : ∀ x ∈ removed, x ∉ roles)
    (hmissing : ∀ x ∈ missing, x ∈ roles) (hx : role ∈ role_names) :
    ((s.db.hasRole user_id role = true ∧ role ∉ removed) ∨ role ∈ missing) ↔ role ∈ roles := by
  constructor
  · rintro (⟨hheld, hkept⟩ | hmem)
    · by_contra hout
      have hsince : Since (scansRoles p user_id) (addsRole user_id role) s.log := by
        by_contra hsince
        exact hnot (.inl ⟨role, hx, hout, hsince⟩)
      obtain ⟨e, he, hscan, hbefore⟩ := hs.scanned p user_id role hsince
      refine hkept ?_
      rw [hscanned e he (pid_of_scans hscan) hscan]
      exact List.mem_filter.mpr ⟨hx, by simp [hbefore hheld, hout]⟩
    · exact hmissing role hmem
  · intro hin
    cases hheld : s.db.hasRole user_id role with
    | true => exact .inl ⟨rfl, fun hmem => hremoved role hmem hin⟩
    | false =>
      right
      have hsince : Since (checksRoles p user_id) (removesRole user_id role) s.log := by
        by_contra hsince
        exact hnot (.inr ⟨role, hin, hsince⟩)
      obtain ⟨e, he, hcheck, hbefore⟩ := hs.checked p user_id role hsince
      rw [hchecked e he (pid_of_checks hcheck) hcheck]
      exact List.mem_filter.mpr ⟨hx, by simp [hbefore hheld, hin]⟩

/-- A grant that is not overtaken adds its role and nothing else, and takes nothing away. -/
theorem RolesInv.grant (hs : RolesInv db₀ s) {roles : List RoleName} {granted : RoleName}
    (hnot : ¬ Overtaken p user_id s.log (.grant granted))
    (hread : Own p (fun e => readsRoles p user_id e → ∀ x ∈ role_names,
      x ∈ roles ↔ e.before.hasRole user_id x = true ∨ x = granted) s.log)
    (hchecked : Checked p user_id roles missing s.log) (hremoved : ∀ x ∈ removed, x ∉ roles)
    (hmissing : ∀ x ∈ missing, x ∈ roles) (hgranted : granted ∈ roles) (hx : role ∈ role_names) :
    ((s.db.hasRole user_id role = true ∧ role ∉ removed) ∨ role ∈ missing) ↔
      s.db.hasRole user_id role = true ∨ role = granted := by
  by_cases hrole : role = granted
  · subst hrole
    refine ⟨fun _ => .inr rfl, fun _ => ?_⟩
    cases hheld : s.db.hasRole user_id role with
    | true => exact .inl ⟨rfl, fun hmem => hremoved role hmem hgranted⟩
    | false =>
      right
      have hsince : Since (checksRoles p user_id) (removesRole user_id role) s.log := by
        by_contra hsince
        exact hnot (.inr hsince)
      obtain ⟨e, he, hcheck, hbefore⟩ := hs.checked p user_id role hsince
      rw [hchecked e he (pid_of_checks hcheck) hcheck]
      exact List.mem_filter.mpr ⟨hx, by simp [hbefore hheld, hgranted]⟩
  · -- The list still says whether the account holds this role.
    have hsince : Since (readsRoles p user_id)
        (fun e => addsRole user_id role e ∨ removesRole user_id role e) s.log := by
      by_contra hsince
      exact hnot (.inl ⟨role, hx, hrole, hsince⟩)
    obtain ⟨e, he, hreads, hbefore⟩ := hs.read p user_id role hsince
    have hlist : role ∈ roles ↔ s.db.hasRole user_id role = true := by
      rw [hread e he (pid_of_reads hreads) hreads role hx, hbefore, or_iff_left hrole]
    rw [or_iff_left hrole]
    constructor
    · rintro (⟨hheld, -⟩ | hmem)
      · exact hheld
      · exact hlist.mp (hmissing role hmem)
    · exact fun hheld => .inl ⟨hheld, fun hmem => hremoved role hmem (hlist.mpr hheld)⟩

end Effect

/-! ### Every statement -/

section Landing

variable {P : Platform} {p : ℕ} {r : Request} {q : Stmt} {x : Except Failure q.Reply}
  {user_id user_id' : Uuid} {change : RoleChange} {s s' : State} {db₀ : Database} {e : Event}
  {log : List Event} {removed missing : List RoleName}

theorem of_landing (h : landing ⟨p, r, s.db, q, x⟩ = some (user_id, change)) :
    r.roleChange = some change ∧ ∃ removed missing a,
      q = .roles (.replace_apply user_id removed missing) ∧ x = .ok a := by
  unfold landing at h
  split at h
  · next heq =>
    obtain ⟨_, hchange, heq'⟩ := Option.map_eq_some_iff.mp h
    cases heq
    cases heq'
    exact ⟨hchange, _, _, (), rfl, rfl⟩
  · cases h

theorem roleChange_of_landing (h : landing e = some (user_id, change)) :
    e.req.roleChange = some change := by
  unfold landing at h
  split at h
  · obtain ⟨_, hchange, heq⟩ := Option.map_eq_some_iff.mp h
    cases heq
    exact hchange
  · cases h

theorem landsOn_eq_some : landsOn user_id e = some change ↔ landing e = some (user_id, change) := by
  rw [landsOn, Option.bind_eq_some_iff]
  constructor
  · rintro ⟨⟨u, c⟩, hl, h⟩
    split at h
    · next hu =>
      cases h
      exact hu ▸ hl
    · cases h
  · exact fun h => ⟨_, h, by simp⟩

theorem LandsOnce.on (h : LandsOnce landing log) : LandsOnce (landsOn user_id) log := by
  induction log with
  | nil => trivial
  | cons e log ih =>
    refine ⟨fun hlands e' he' hpid => ?_, ih h.2⟩
    have hnone : landing e ≠ none := fun hnone => hlands (by simp [landsOn, hnone])
    simp [landsOn, h.1 hnone e' he' hpid]

/-- **What a landing does**: exactly what the call is for, if it is not overtaken. -/
theorem RolesInv.rolesOf_landing (hs : RolesInv db₀ s)
    (hpre : Replaces p r user_id removed missing s.log)
    (hnot : ¬ overtakes p r s.log (.roles (.replace_apply user_id removed missing)))
    (hchange : r.roleChange = some change)
    (h : notOvertaken.Effect (store P) p r (.roles (.replace_apply user_id removed missing)) s
      (.ok ()) s') : s'.db.rolesOf user_id = change.apply (s.db.rolesOf user_id) := by
  obtain ⟨roles, hintended, hscanned, hchecked, hremoved, hmissing, -⟩ := hpre
  have hnot' : ¬ Overtaken p user_id s.log change := fun ho => hnot ⟨change, hchange, ho⟩
  obtain ⟨-, c, db, hrun, rfl⟩ := h.of_ok
  have hafter : ∀ y, db.hasRole user_id y = true ↔
      (s.db.hasRole user_id y = true ∧ y ∉ removed) ∨ y ∈ missing := fun y =>
    (hasRole_of_replace hrun).trans (by simp)
  rcases hintended with hset | ⟨granted, hgrant, hmem, hread⟩
  · cases hchange.symm.trans hset
    change role_names.filter (db.hasRole user_id) = role_names.filter fun y => y ∈ roles
    refine List.filter_congr fun y hy => Bool.eq_iff_iff.mpr ?_
    rw [decide_eq_true_iff]
    exact (hafter y).trans (hs.set hnot' hscanned hchecked hremoved hmissing hy)
  · cases hchange.symm.trans hgrant
    change role_names.filter (db.hasRole user_id) =
      role_names.filter fun y => y ∈ s.db.rolesOf user_id ∨ y = granted
    refine List.filter_congr fun y hy => Bool.eq_iff_iff.mpr ?_
    rw [decide_eq_true_iff, Database.rolesOf, List.mem_filter, and_iff_right hy]
    exact (hafter y).trans (hs.grant hnot' hread hchecked hremoved hmissing hmem hy)

/-- The roles of everybody else stay as they are. -/
theorem rolesOf_of_quiet (hpre : RolePre p r s.log q)
    (hquiet : landsOn user_id ⟨p, r, s.db, q, x⟩ = none)
    (h : notOvertaken.Effect (store P) p r q s x s') :
    s'.db.rolesOf user_id = s.db.rolesOf user_id := by
  by_cases hq : ∃ u removed missing, q = .roles (.replace_apply u removed missing) ∧ ∃ a, x = .ok a
  · obtain ⟨u, removed, missing, rfl, a, rfl⟩ := hq
    obtain ⟨roles, hintended, -⟩ := hpre
    obtain ⟨change, hchange⟩ : ∃ change, r.roleChange = some change := by
      rcases hintended with hset | ⟨granted, hgrant, -⟩
      · exact ⟨_, hset⟩
      · exact ⟨_, hgrant⟩
    have hne : user_id ≠ u := by
      rintro rfl
      simp [landsOn, landing, hchange] at hquiet
    obtain ⟨-, c, db, hrun, rfl⟩ := h.of_ok
    refine List.filter_congr fun y _ => Bool.eq_iff_iff.mpr ?_
    exact (hasRole_of_replace hrun).trans (by simp [hne])
  · have hsame : s'.db.user_roles = s.db.user_roles := user_roles_of_effect hpre h
      fun u removed missing heq a hok => hq ⟨u, removed, missing, heq, a, hok⟩
    simp only [Database.rolesOf, hasRole_congr hsame]
/-- Every statement of the regime keeps the invariant. For the snapshots there is a general rule
(`Snapshot.effect`): what was found at the look still holds unless somebody has changed it since,
and that is an event which outdates the snapshot. The serial account of the roles moves on when a
call lands, and stands still when nothing lands. -/
theorem RolesInv.effect (hs : RolesInv db₀ s) (hpre : RolePre p r s.log q)
    (h : notOvertaken.Effect (store P) p r q s x s') : RolesInv db₀ s' := by
  have hroles : ∀ {u y}, s'.db.user_roles = s.db.user_roles →
      s'.db.hasRole u y = s.db.hasRole u y := fun hsame => by rw [hasRole_congr hsame]
  refine ⟨fun p' u y => ?_, fun p' u y => ?_, fun p' u y => ?_, fun u => ?_, ?_⟩
  · refine (hs.scanned p' u y).effect h (fun hscan hheld => ?_) fun hout before hK hheld => ?_
    · rwa [hroles (user_roles_of_look hpre h (.inl ⟨p', u, hscan⟩))] at hheld
    · exact hK (((hasRole_of_effect u y hpre h).1 hheld).resolve_right hout)
  · refine (hs.checked p' u y).effect h (fun hcheck hheld => ?_) fun hout before hK hheld => ?_
    · rwa [hroles (user_roles_of_look hpre h (.inr (.inl ⟨p', u, hcheck⟩)))] at hheld
    · exact hK (((hasRole_of_effect u y hpre h).2 hheld).resolve_right hout)
  · refine (hs.read p' u y).effect h (fun hread => ?_) fun hout before hK => ?_
    · exact hroles (user_roles_of_look hpre h (.inr (.inr ⟨p', u, hread⟩)))
    · rw [← hK]
      obtain ⟨hgain, hlose⟩ := hasRole_of_effect u y hpre h
      cases hafter : s'.db.hasRole u y with
      | true => exact ((hgain hafter).resolve_right fun ha => hout (.inl ha)).symm
      | false => exact ((hlose hafter).resolve_right fun hr => hout (.inr hr)).symm
  · refine h.view_eq_foldl (fun db => db.rolesOf u) RoleChange.apply (hs.serial u)
      (fun change hlands => ?_) fun hquiet => rolesOf_of_quiet hpre hquiet h
    obtain ⟨hchange, removed, missing, a, rfl, rfl⟩ := of_landing (landsOn_eq_some.mp hlands)
    exact hs.rolesOf_landing hpre h.of_ok.1.2 hchange h
  · rw [h.log_eq]
    refine ⟨fun hlands e he hpid => ?_, hs.once⟩
    obtain ⟨⟨u, change⟩, hl⟩ := Option.ne_none_iff_exists'.mp hlands
    obtain ⟨-, removed, missing, a, rfl, -⟩ := of_landing hl
    obtain ⟨-, -, -, -, -, -, hfirst⟩ := hpre
    exact hfirst e he hpid

theorem RolesInv.start (db₀ : Database) : RolesInv db₀ (World.start db₀).shared where
  scanned _ _ _ := fun h => absurd h since_nil
  checked _ _ _ := fun h => absurd h since_nil
  read _ _ _ := fun h => absurd h since_nil
  serial _ := rfl
  once := trivial

end Landing

/-! ### The calls -/

/-- Nothing of the database is needed: what a call goes by is what it has found itself. -/
def roleLogic (P : Platform) (G : Regime) : Logic G (store P) :=
  .ofPre fun p r q s => RolePre p r s.log q

section Scripts

variable {d : Deployment} {P : Platform} {G : Regime} {p : ℕ} {r : Request} {s s' : State}
  {q : Stmt} {x : Except Failure q.Reply} {user_id : Uuid} {change : RoleChange}
  {roles removed missing : List RoleName} {ε α β : Type}

/-- `p` has only looked so far. -/
def OnlyLooked (K : Stmt → Prop) (p : ℕ) : List Event → Prop := Own p fun e => K e.stmt

/-- A piece of a call that only looks, and what follows. -/
theorem wp_look_bind {K : Stmt → Prop} (hK : ∀ q, K q → q.looksAtAccounts) {x : Code ε β}
    {f : β → Code ε α} {Φ : Except ε α → State → Prop} (hx : x.Issues K)
    (hs : OnlyLooked K p s.log) (herr : ∀ e s, Φ (.error e) s)
    (hf : ∀ b s', OnlyLooked K p s'.log → (roleLogic P G).wp p r (f b) Φ s') :
    (roleLogic P G).wp p r (x >>= f) Φ s := by
  refine Logic.wp_bind (Ψ := fun _ s' => OnlyLooked K p s'.log) trivial ?_
    (fun b s' _ hs' => hf b s' hs') fun e s' _ _ => herr e s'
  exact Logic.wp_of_does K (fun _ _ => True) (fun s => OnlyLooked K p s.log) (fun _ => True)
    (fun hs he => hs.of_others he.others) (fun hq _ _ => (hK _ hq).rolePre)
    (fun hq _ hs hx _ => ⟨trivial, hs.effect hx hq⟩) (fun _ hs => hs) hx.does hs

/-- `p` has replaced the roles of the account. -/
def HasLanded (p : ℕ) (user_id : Uuid) (change : RoleChange) (log : List Event) : Prop :=
  ∃ e ∈ log, e.pid = p ∧ landing e = some (user_id, change)

theorem HasLanded.mono {log log' : List Event} (h : HasLanded p user_id change log)
    (hlog : ∀ e ∈ log, e ∈ log') : HasLanded p user_id change log' := by
  obtain ⟨e, he, hl⟩ := h
  exact ⟨e, hlog e he, hl⟩

theorem Intended.of_others (h : Intended p r user_id roles s.log) (ho : Others p s s') :
    Intended p r user_id roles s'.log :=
  h.imp_right fun ⟨role, hr, hmem, hown⟩ => ⟨role, hr, hmem, hown.of_others ho⟩

theorem Intended.effect (h : Intended p r user_id roles s.log)
    (hx : G.Effect (store P) p r q s x s') (hq : ¬ readsRoles p user_id ⟨p, r, s.db, q, x⟩) :
    Intended p r user_id roles s'.log :=
  h.imp_right fun ⟨role, hr, hmem, hown⟩ => ⟨role, hr, hmem, hown.effect hx fun h => absurd h hq⟩

theorem not_scans_of_look {e : Event} (h : e.stmt.looksAtAccounts) : ¬ scansRoles p user_id e := by
  intro hscan
  unfold scansRoles at hscan
  split at hscan
  · exact h
  · exact hscan

theorem not_checks_of_look {e : Event} (h : e.stmt.looksAtAccounts) :
    ¬ checksRoles p user_id e := by
  intro hcheck
  unfold checksRoles at hcheck
  split at hcheck
  · exact h
  · exact hcheck

theorem landing_of_look {e : Event} (h : e.stmt.looksAtAccounts) : landing e = none := by
  unfold landing
  split
  · exact h.elim
  · rfl

/-- **The replacement**: it goes by what it finds, and has landed when it has ended well. -/
theorem wp_replace_for_user (hs : OnlyLooked Stmt.looksAtAccounts p s.log)
    (hi : Intended p r user_id roles s.log) (hchange : r.roleChange = some change) :
    (roleLogic P G).wp p r (IdentityService.replace_for_user user_id roles)
      (fun y s' => y = .ok () → HasLanded p user_id change s'.log) s := by
  refine Logic.wp_query_bind fun s₁ he₁ => ⟨trivial, fun removed s₂ hx₂ _ => ?_,
    fun _ _ _ _ _ _ => nofun⟩
  have hs₁ : OnlyLooked Stmt.looksAtAccounts p s₁.log := hs.of_others he₁.others
  have hremoved : removed = role_names.filter fun y => s₁.db.hasRole user_id y && y ∉ roles := by
    obtain ⟨-, c, db, hrun, -⟩ := hx₂.of_ok
    cases hrun
    rfl
  have hscanned₂ : Scanned p user_id roles removed s₂.log :=
    (hs₁.mono fun _ hlook hscan => absurd hscan (not_scans_of_look hlook)).effect hx₂ fun _ =>
      hremoved
  have hunchecked₂ : Own p (fun e => ¬ checksRoles p user_id e) s₂.log :=
    (hs₁.mono fun _ => not_checks_of_look).effect hx₂ id
  have hfirst₂ : Own p (fun e => landing e = none) s₂.log :=
    (hs₁.mono fun _ => landing_of_look).effect hx₂ rfl
  have hi₂ : Intended p r user_id roles s₂.log := (hi.of_others he₁.others).effect hx₂ id
  refine Logic.wp_query_bind fun s₃ he₃ => ⟨trivial, fun missing s₄ hx₄ _ => ?_,
    fun _ _ _ _ _ _ => nofun⟩
  have hmissing : missing = role_names.filter fun y => y ∈ roles && !s₃.db.hasRole user_id y := by
    obtain ⟨-, c, db, hrun, -⟩ := hx₄.of_ok
    cases hrun
    rfl
  have hchecked₄ : Checked p user_id roles missing s₄.log :=
    ((hunchecked₂.of_others he₃.others).mono fun _ hno hcheck => absurd hcheck hno).effect hx₄
      fun _ => hmissing
  have hscanned₄ : Scanned p user_id roles removed s₄.log :=
    (hscanned₂.of_others he₃.others).effect hx₄ False.elim
  have hfirst₄ := (hfirst₂.of_others he₃.others).effect hx₄ rfl
  have hi₄ := (hi₂.of_others he₃.others).effect hx₄ id
  refine Logic.wp_query fun s₅ he₅ => ⟨⟨roles, hi₄.of_others he₅.others,
    hscanned₄.of_others he₅.others, hchecked₄.of_others he₅.others, fun y hy => ?_, fun y hy => ?_,
    hfirst₄.of_others he₅.others⟩, fun _ s₆ hx₆ _ s₇ he₇ _ => ?_, fun _ _ _ _ _ _ => nofun⟩
  · rw [hremoved] at hy
    simpa using (Bool.and_eq_true_iff.mp (List.mem_filter.mp hy).2).2
  · rw [hmissing] at hy
    simpa using (Bool.and_eq_true_iff.mp (List.mem_filter.mp hy).2).1
  · exact ⟨_, he₇.others.mem hx₆.mem_self, rfl, by simp [landing, hchange]⟩

theorem looksAtAccounts_of_onSessions {q : Stmt} (h : q.onSessions) : q.looksAtAccounts := by
  cases q with
  | sessions _ | begin_tx | commit _ | rollback | now | generate => trivial
  | users q => cases q <;> trivial
  | roles q => cases q <;> trivial
  | _ => exact h.elim

theorem authenticate_looks (claims : AccessClaims) :
    (AuthService.authenticate d claims).Issues Stmt.looksAtAccounts :=
  (AuthService.authenticate_issues claims).mono fun _ hq =>
    looksAtAccounts_of_onSessions hq.onSessions

theorem reject_unknown_roles_issues (roles : List RoleName) :
    (IdentityService.reject_unknown_roles roles).Issues fun q => q = .roles .role_names := by
  refine (issues_query (P := fun q => q = Stmt.roles .role_names) rfl).bind fun known => ?_
  split <;> trivial

theorem reject_unknown_roles_looks (roles : List RoleName) :
    (IdentityService.reject_unknown_roles roles).Issues Stmt.looksAtAccounts :=
  (reject_unknown_roles_issues roles).mono fun q hq => by
    subst hq
    trivial

theorem load_looks (id : Uuid) : (IdentityService.load id).Issues Stmt.looksAtAccounts := by
  refine (issues_query trivial).bind fun found => ?_
  cases found <;> trivial

theorem account_looks (id : Uuid) : (IdentityService.account id).Issues Stmt.looksAtAccounts :=
  (load_looks id).bind fun _ => (issues_query trivial).bind fun _ => issues_ret

theorem ensure_an_admin_remains_looks (target_id : Uuid) :
    (IdentityService.ensure_an_admin_remains target_id).Issues Stmt.looksAtAccounts := by
  refine (issues_query trivial).bind fun admins => ?_
  split <;> trivial

theorem wp_set_account_roles (hs : OnlyLooked Stmt.looksAtAccounts p s.log)
    (hr : r.roleChange = some (.set roles)) :
    (roleLogic P G).wp p r (IdentityService.set_account_roles user_id roles)
      (fun y s' => (∃ a, y = .ok a) → HasLanded p user_id (.set roles) s'.log) s := by
  have hfail : ∀ {e : IdentityError} {s' : State}, (∃ a : PublicUser, Except.error e = .ok a) →
      HasLanded p user_id (.set roles) s'.log := fun ⟨_, h⟩ => nomatch h
  refine wp_look_bind (fun _ => id) (reject_unknown_roles_looks roles) hs (fun _ _ => hfail)
    fun _ s₁ hs₁ => ?_
  refine wp_look_bind (fun _ => id) (issues_query trivial) hs₁ (fun _ _ => hfail)
    fun before s₂ hs₂ => ?_
  refine wp_look_bind (fun _ => id) (Issues.when fun _ => ensure_an_admin_remains_looks user_id) hs₂
    (fun _ _ => hfail) fun _ s₃ hs₃ => ?_
  refine wp_look_bind (fun _ => id) (load_looks user_id) hs₃ (fun _ _ => hfail) fun _ s₄ hs₄ => ?_
  refine Logic.wp_bind trivial (wp_replace_for_user hs₄ (.inl hr) hr) (fun _ s₅ _ hlanded => ?_)
    fun _ _ _ _ => hfail
  refine Logic.wp_mono (Ψ := fun _ s' => HasLanded p user_id (.set roles) s'.log) ?_
    fun _ _ _ h _ => h
  exact Logic.wp_of_does (L := roleLogic P G) Stmt.looksAtAccounts (fun _ _ => True)
    (fun s => HasLanded p user_id (.set roles) s.log) (fun _ => True)
    (fun h he => h.mono fun _ => he.others.mem) (fun hq _ _ => hq.rolePre)
    (fun _ _ h hx _ => ⟨trivial, h.mono fun _ => hx.mem⟩) (fun _ h => h)
    (account_looks user_id).does
    (hlanded rfl)

theorem wp_grant_role_by_email (hfresh : ∀ e ∈ s.log, e.pid ≠ p) (email : String)
    (role : RoleName) (hr : r.roleChange = some (.grant role)) :
    (roleLogic d.platform G).wp p r (IdentityService.grant_role_by_email d email role)
      (fun y s' => ∀ id, y = .ok id → HasLanded p id (.grant role) s'.log) s := by
  have hnames : ∀ q, q = Stmt.roles .role_names → q.looksAtAccounts := by
    rintro _ rfl
    trivial
  refine wp_look_bind hnames (reject_unknown_roles_issues [role]) (.of_fresh hfresh)
    (fun _ _ _ => nofun) fun _ s₁ hs₁ => ?_
  have hunread : ∀ u, Own p (fun e => e.stmt.looksAtAccounts ∧ ¬ readsRoles p u e) s₁.log :=
    fun u =>
    hs₁.mono fun e he => ⟨hnames _ he, fun hread => by
      unfold readsRoles at hread
      split at hread
      · cases he
      · exact hread⟩
  refine Logic.wp_query_bind fun s₂ he₂ => ⟨trivial, fun found s₃ hx₃ _ => ?_,
    fun _ _ _ _ _ _ _ => nofun⟩
  cases found with
  | none => exact fun _ _ _ => nofun
  | some user =>
    have hs₃ : Own p (fun e => e.stmt.looksAtAccounts ∧ ¬ readsRoles p user.id e) s₃.log :=
      ((hunread user.id).of_others he₂.others).effect hx₃ ⟨trivial, id⟩
    refine Logic.wp_query_bind fun s₄ he₄ => ⟨trivial, fun known s₅ hx₅ _ => ?_,
      fun _ _ _ _ _ _ _ => nofun⟩
    have hknown : known = role_names.filter (s₄.db.hasRole user.id) := by
      obtain ⟨-, c, db, hrun, -⟩ := hx₅.of_ok
      cases hrun
      rfl
    have hlooked : OnlyLooked Stmt.looksAtAccounts p s₅.log :=
      ((hs₃.of_others he₄.others).mono fun _ he => he.1).effect hx₅ trivial
    have hintended : Intended p r user.id (if role ∈ known then known else known ++ [role])
        s₅.log := by
      refine .inr ⟨role, hr, ?_, ((hs₃.of_others he₄.others).mono fun _ he hread =>
        absurd hread he.2).effect hx₅ fun _ y hy => ?_⟩
      · split
        · assumption
        · simp
      · have hmem : y ∈ known ↔ s₄.db.hasRole user.id y = true := by
          rw [hknown, List.mem_filter, and_iff_right hy]
        rw [mem_of_grant, hmem]
    refine Logic.wp_bind trivial (wp_replace_for_user hlooked hintended hr)
      (fun _ s₆ _ hlanded s₇ he₇ id heq => ?_) fun _ _ _ _ _ => nofun
    cases heq
    exact (hlanded rfl).mono fun _ => he₇.others.mem

/-- What is known of a call that has ended: it has landed. -/
def RolePost (p : ℕ) (r : Request) (y : Except r.Err r.Res) (s : State) : Prop :=
  ∀ a, y = .ok a → ∀ user_id change, r.changedRoles a = some (user_id, change) →
    HasLanded p user_id change s.log

theorem wp_roles (hr : r.handlesRoles) (hfresh : ∀ e ∈ s.log, e.pid ≠ p) :
    (roleLogic d.platform G).wp p r (Request.code d r) (RolePost p r) s := by
  cases r with
  | administer op actor_id =>
    cases op with
    | set_roles target_id roles =>
      refine Logic.wp_bind trivial (wp_set_account_roles (.of_fresh hfresh) rfl)
        (fun _ s₁ _ hlanded s₂ he₂ a heq user_id change hchanged => ?_) fun _ _ _ _ _ => nofun
      cases hchanged
      exact (hlanded ⟨_, rfl⟩).mono fun _ => he₂.others.mem
    | _ => exact hr.elim
  | as_admin claims op =>
    cases op with
    | set_roles target_id roles =>
      refine wp_look_bind (fun _ => id) (authenticate_looks claims).mapError (.of_fresh hfresh)
        (fun _ _ _ => nofun) fun user s₁ hs₁ => ?_
      have hrole : (require_role user .admin).Issues Stmt.looksAtAccounts := by
        unfold require_role
        split <;> trivial
      refine wp_look_bind (fun _ => id) hrole hs₁ (fun _ _ _ => nofun) fun _ s₂ hs₂ => ?_
      refine Logic.wp_mapError (Logic.wp_bind trivial (wp_set_account_roles hs₂ rfl)
        (fun _ s₃ _ hlanded s₄ he₄ a heq user_id change hchanged => ?_) fun _ _ _ _ _ => nofun)
      cases hchanged
      exact (hlanded ⟨_, rfl⟩).mono fun _ => he₄.others.mem
    | _ => exact hr.elim
  | grant_role_by_email email role =>
    refine Logic.wp_mono (wp_grant_role_by_email hfresh email role rfl) ?_
    rintro y s₁ - hlanded a rfl user_id change hchanged
    cases hchanged
    exact hlanded _ rfl
  | authenticate claims =>
    refine Logic.wp_mono (Logic.wp_of_does Stmt.looksAtAccounts (fun _ _ => True) (fun _ => True)
      (fun _ => True) (fun _ _ => trivial) (fun hq _ _ => hq.rolePre)
      (fun _ _ _ _ _ => ⟨trivial, trivial⟩) (fun _ _ => trivial) (authenticate_looks claims).does
      trivial) ?_
    exact fun _ _ _ (_ : True) _ _ _ _ => nofun
  | _ => exact hr.elim

end Scripts

/-! ### A call on its own

Run without interruption, a call makes of the roles what it should. This is what the law compares
the interleaved calls with. -/

section Alone

variable {d : Deployment} {P : Platform} {p : ℕ} {r : Request} {user_id : Uuid} {db db' : Database}
  {roles : List RoleName} {cs cs' : ℕ → Choice}

theorem user_roles_of_alone {ε α : Type} {x : Code ε α} {y : Except ε α}
    (hx : x.Issues Stmt.looksAtAccounts) (h : (store P).alone p x cs db = some (y, db', cs')) :
    db'.user_roles = db.user_roles := by
  refine Store.inv_of_alone (I := fun db' => db'.user_roles = db.user_roles) hx ?_ h rfl
  intro q c db₁ db₂ y hq hrun heq
  rw [← heq]
  by_cases hroles : ∃ q', q = .roles q'
  · obtain ⟨q', rfl⟩ := hroles
    cases q' <;> first | exact hq.elim | (cases hrun; rfl)
  · refine Stmt.user_roles_eq hrun (fun q' heq => hroles ⟨q', heq⟩) fun id heq => ?_
    subst heq
    exact hq

/-- On its own a replacement makes the roles the given list. -/
theorem rolesOf_of_alone_replace
    (h : (store P).alone p (IdentityService.replace_for_user user_id roles) cs db =
      some (.ok (), db', cs')) : db'.rolesOf user_id = role_names.filter fun x => x ∈ roles := by
  obtain ⟨removed, db₁, cs₁, hscan, h⟩ := Store.of_alone_bind h
  obtain ⟨missing, db₂, cs₂, hcheck, h⟩ := Store.of_alone_bind h
  have hrun := Store.of_alone_query h
  cases Store.of_alone_query hscan
  cases Store.of_alone_query hcheck
  refine List.filter_congr fun x hx => Bool.eq_iff_iff.mpr ?_
  refine (hasRole_of_replace hrun).trans ?_
  cases hheld : db.hasRole user_id x <;> by_cases hin : x ∈ roles <;> simp [hx, hin, hheld]

/-- **What the calls are for is what they do on their own.** -/
theorem rolesOf_of_alone {a : r.Res} {change : RoleChange}
    (h : (store d.platform).alone p (r.code d) cs db = some (.ok a, db', cs'))
    (hchanged : r.changedRoles a = some (user_id, change)) :
    db'.rolesOf user_id = change.apply (db.rolesOf user_id) := by
  have hset : ∀ {target_id roles} {a : PublicUser} {db cs db' cs'},
      (store d.platform).alone p (IdentityService.set_account_roles target_id roles) cs db =
        some (.ok a, db', cs') → db'.rolesOf target_id = role_names.filter fun x => x ∈ roles := by
    intro target_id roles a db cs db' cs' h
    obtain ⟨_, db₁, cs₁, -, h⟩ := Store.of_alone_bind h
    obtain ⟨before, db₂, cs₂, -, h⟩ := Store.of_alone_bind h
    obtain ⟨_, db₃, cs₃, -, h⟩ := Store.of_alone_bind h
    obtain ⟨_, db₄, cs₄, -, h⟩ := Store.of_alone_bind h
    obtain ⟨_, db₅, cs₅, hreplace, h⟩ := Store.of_alone_bind h
    rw [Database.rolesOf, hasRole_congr (user_roles_of_alone (account_looks target_id) h)]
    exact rolesOf_of_alone_replace hreplace
  unfold Request.changedRoles at hchanged
  split at hchanged <;> cases hchanged
  · obtain ⟨_, db₁, cs₁, hcall, h⟩ := Store.of_alone_bind h
    cases h
    exact hset hcall
  · obtain ⟨user, db₁, cs₁, -, h⟩ := Store.of_alone_bind h
    obtain ⟨_, db₂, cs₂, -, h⟩ := Store.of_alone_bind h
    rw [Store.alone_mapError] at h
    obtain ⟨⟨y, rest⟩, h, heq⟩ := Option.map_eq_some_iff.mp h
    cases y with
    | error e => cases heq
    | ok _ =>
      cases heq
      obtain ⟨_, db₃, cs₃, hcall, h⟩ := Store.of_alone_bind h
      cases h
      exact hset hcall
  · next email role =>
    obtain ⟨_, db₁, cs₁, hnames, h⟩ := Store.of_alone_bind h
    obtain ⟨found, db₂, cs₂, hfind, h⟩ := Store.of_alone_bind h
    have hlooks : (ask (.users (.find_by_email (normalize_email d.platform email))) :
        Code IdentityError (Option UserRecord)).Issues Stmt.looksAtAccounts := issues_query trivial
    have hsame : db₂.user_roles = db.user_roles := (user_roles_of_alone hlooks hfind).trans
      (user_roles_of_alone (reject_unknown_roles_looks [role]) hnames)
    cases found with
    | none => cases h
    | some user =>
      obtain ⟨known, db₃, cs₃, hread, h⟩ := Store.of_alone_bind h
      obtain ⟨_, db₄, cs₄, hreplace, h⟩ := Store.of_alone_bind h
      cases h
      cases Store.of_alone_query hread
      rw [rolesOf_of_alone_replace hreplace, Database.rolesOf, ← hasRole_congr hsame]
      change _ = role_names.filter fun y => y ∈ role_names.filter (db₂.hasRole user.id) ∨ y = role
      refine List.filter_congr fun y hy => Bool.eq_iff_iff.mpr ?_
      rw [decide_eq_true_iff, decide_eq_true_iff]
      exact mem_of_grant

end Alone

/-! ### Every run -/

section Run

variable {d : Deployment} {db : Database} {w w' : World}

theorem role_safe (db : Database) :
    (roleLogic d.platform notOvertaken).Safe RolePost (World.start db) := .start trivial

theorem rolesInv_of_reaches (h : Reaches d notOvertaken (World.start db) w) :
    RolesInv db w.shared :=
  Logic.inv_of_reaches (fun _ _ _ hr _ hfresh => wp_roles hr hfresh) (role_safe db) (.start db)
    (fun _ hpre hs he => hs.effect hpre he)
    (fun _ hs => ⟨hs.scanned, hs.checked, hs.read, hs.serial, hs.once⟩)
    (fun hs => ⟨hs.scanned, hs.checked, hs.read, hs.serial, hs.once⟩) h

/-- A call that changes roles says whose, once it has returned. -/
theorem exists_changed {r : Request} {change : RoleChange} (h : r.roleChange = some change)
    (a : r.Res) : ∃ user_id, r.changedRoles a = some (user_id, change) := by
  unfold Request.roleChange at h
  split at h <;> cases h <;> exact ⟨_, rfl⟩

/-- **The calls are serial.** In every run in which no replacement is overtaken, the roles of an
account are those a serial order of its calls leads to, once these have returned `Ok`; and
whenever a grant lands, every other role stays as it is. -/
theorem rolesSerial_of_reaches (user_id : Uuid)
    (h : Reaches d notOvertaken (World.start db) w) :
    (RolesSettled user_id w → RolesSerial user_id db w) ∧
      ∀ w', notOvertaken.Step (store d.platform) (Request.code d) w w' →
        ∀ e, w'.shared.log = e :: w.shared.log → ∀ role, landsOn user_id e = some (.grant role) →
          w'.shared.db.rolesOf user_id =
            role_names.filter fun x => x ∈ w.shared.db.rolesOf user_id ∨ x = role := by
  have hinv := rolesInv_of_reaches h
  have hsafe : (roleLogic d.platform notOvertaken).Safe RolePost w :=
    Logic.safe_of_reaches (fun _ _ _ hr _ hfresh => wp_roles hr hfresh) (role_safe db) h
  refine ⟨fun hsettled => ?_, fun w' hstep e hlog role hlands => ?_⟩
  · refine ⟨serial (landsOn user_id) w.shared.log, nodup_serial (LandsOnce.on hinv.once),
      fun p change => ?_,
      hinv.serial user_id⟩
    rw [mem_serial]
    constructor
    · rintro ⟨e, he, rfl, hlands⟩
      obtain ⟨a, hreturned⟩ := hsettled e he (by simp [hlands])
      have hl : landing e = some (user_id, change) := landsOn_eq_some.mp hlands
      obtain ⟨u, hchanged⟩ := exists_changed (roleChange_of_landing hl) a
      -- The account it answers is the one whose roles it has replaced: it replaces no others.
      obtain ⟨e', he', hpid, hl'⟩ := hsafe.of_returned hreturned a rfl u change hchanged
      have hsame : e' = e :=
        LandsOnce.eq_of_mem hinv.once he' he hpid (by simp [hl']) (by simp [hl])
      subst hsame
      cases hl'.symm.trans hl
      exact ⟨_, a, hreturned, hchanged⟩
    · rintro ⟨r, a, hreturned, hchanged⟩
      obtain ⟨e, he, hpid, hl⟩ := hsafe.of_returned hreturned a rfl user_id change hchanged
      exact ⟨e, he, hpid, landsOn_eq_some.mpr hl⟩
  · have hinv' := rolesInv_of_reaches (h.tail hstep)
    rw [hinv'.serial, hlog, serial_cons_of_some hlands, List.foldl_append, ← hinv.serial]
    rfl

end Run

/-! ### A grant that takes a role away

Two grants to an account without roles read the same empty list. Each replaces the roles by the
one it grants, and the second takes away what the first has given. -/

instance (p : ℕ) (user_id : Uuid) : DecidablePred (scansRoles p user_id) := fun e => by
  delta scansRoles
  split <;> infer_instance

instance (p : ℕ) (user_id : Uuid) : DecidablePred (checksRoles p user_id) := fun e => by
  delta checksRoles
  split <;> infer_instance

instance (p : ℕ) (user_id : Uuid) : DecidablePred (readsRoles p user_id) := fun e => by
  delta readsRoles
  split <;> infer_instance

instance (user_id : Uuid) (role : RoleName) : DecidablePred (addsRole user_id role) := fun e => by
  delta addsRole
  split <;> infer_instance

instance (user_id : Uuid) (role : RoleName) : DecidablePred (removesRole user_id role) :=
  fun e => by
  delta removesRole
  split <;> infer_instance

instance (p : ℕ) (user_id : Uuid) (log : List Event) : DecidablePred (Overtaken p user_id log) :=
  fun change => by
    delta Overtaken
    split <;> infer_instance

instance (p : ℕ) (r : Request) (log : List Event) : DecidablePred (overtakes p r log) := fun q => by
  delta overtakes
  split <;> infer_instance

instance : DecidablePred Request.handlesRoles := fun r => by
  delta Request.handlesRoles
  split <;> infer_instance

/-- Nobody holds a role. -/
def withoutRoles : Database := { Database.sample with user_roles := .empty }

/-- Ada is granted both roles at the same time. Both grants read her roles before either lands. -/
def twoGrants : List Step :=
  [.spawn 0 (.grant_role_by_email "ada@example.org" .user),
    .spawn 1 (.grant_role_by_email "ada@example.org" .admin),
    .step 0 {}, .step 0 {}, .step 0 {}, .step 1 {}, .step 1 {}, .step 1 {},
    .step 0 {}, .step 0 {}, .step 0 {}, .step 1 {}, .step 1 {}, .step 1 {}]

/-- **The second grant takes back what the first has given**; both have returned `Ok`. -/
theorem not_rolesSerial : ¬ ∀ w, Reaches .sample (Regime.free Request.handlesRoles)
    (World.start withoutRoles) w → RolesSettled 8 w → RolesSerial 8 withoutRoles w := by
  intro hall
  let w := Deployment.sample.play (Regime.free Request.handlesRoles) twoGrants withoutRoles
  have h₀ : w.Returned 0 (.grant_role_by_email "ada@example.org" .user) (8 : Uuid) := by rfl
  have h₁ : w.Returned 1 (.grant_role_by_email "ada@example.org" .admin) (8 : Uuid) := by rfl
  have hlanded : (w.shared.log.filter fun e => landsOn 8 e ≠ none).map (fun e => (e.pid, e.req)) =
      [(1, .grant_role_by_email "ada@example.org" .admin),
        (0, .grant_role_by_email "ada@example.org" .user)] := by rfl
  have hroles : w.shared.db.rolesOf 8 = [.admin] := by decide +kernel
  have hnobody : ∀ p, p ≠ 0 → p ≠ 1 → w.procs p = none := fun p hp hp' =>
    procs_play _ (by simp [spawned, twoGrants, hp, hp'])
  have hserial := hall w (Deployment.sample.reaches_play _ twoGrants withoutRoles)
  clear_value w
  have hsettled : RolesSettled 8 w := by
    intro e he hl
    have hmem : (e.pid, e.req) ∈ _ :=
      hlanded ▸ List.mem_map_of_mem (List.mem_filter.mpr ⟨he, by simpa using hl⟩)
    rcases List.mem_pair.mp hmem with heq | heq <;> obtain ⟨hpid, hreq⟩ := Prod.mk.inj heq <;>
      rw [hpid, hreq]
    · exact ⟨_, h₁⟩
    · exact ⟨_, h₀⟩
  obtain ⟨order, hnodup, hmem, heq⟩ := hserial hsettled
  have hperm : order.Perm [(0, .grant .user), (1, .grant .admin)] := by
    refine (List.perm_ext_iff_of_nodup hnodup.of_map (by decide)).mpr fun call => ?_
    obtain ⟨p, change⟩ := call
    rw [hmem, List.mem_pair]
    constructor
    · rintro ⟨r, a, hreturned, hchanged⟩
      by_cases hp : p = 0
      · subst hp
        cases h₀.symm.trans hreturned
        cases hchanged
        exact .inl rfl
      · by_cases hp' : p = 1
        · subst hp'
          cases h₁.symm.trans hreturned
          cases hchanged
          exact .inr rfl
        · cases (hnobody p hp hp').symm.trans hreturned
    · rintro (heq | heq) <;> cases heq
      · exact ⟨_, _, h₀, rfl⟩
      · exact ⟨_, _, h₁, rfl⟩
  -- In either order Ada ends up with both roles.
  have hboth : ∀ order ∈ [(0, RoleChange.grant .user), (1, .grant .admin)].permutations',
      order.foldl (fun held call => call.2.apply held) (withoutRoles.rolesOf 8) =
        [.admin, .user] := by decide
  rw [hroles, hboth order (List.mem_permutations'.mpr hperm)] at heq
  cases heq

/-- Ada is granted a role and stripped of another one at the same time. The set has begun first, but
takes its snapshot when the grant has landed. -/
def grantThenSet : List Step :=
  [.spawn 0 (.grant_role_by_email "ada@example.org" .user),
    .spawn 1 (.administer (.set_roles 8 [.user]) 9), .step 1 {}, .step 1 {},
    .step 0 {}, .step 0 {}, .step 0 {}, .step 0 {}, .step 0 {}, .step 0 {},
    .step 1 {}, .step 1 {}, .step 1 {}, .step 1 {}, .step 1 {}, .step 1 {}, .step 1 {}]

/-- The roles are what the grant and then the set make of them. -/
theorem rolesSerial_grantThenSet :
    let w := Deployment.sample.play notOvertaken grantThenSet .sample
    w.shared.db.rolesOf 8 = [.user] ∧ RolesSerial 8 .sample w := by
  intro w
  have h₀ : w.Returned 0 (.grant_role_by_email "ada@example.org" .user) (8 : Uuid) := by rfl
  have h₁ : w.Returned 1 (.administer (.set_roles 8 [.user]) 9) () := by rfl
  have hlanded : (w.shared.log.filter fun e => landsOn 8 e ≠ none).map (fun e => (e.pid, e.req)) =
      [(1, .administer (.set_roles 8 [.user]) 9),
        (0, .grant_role_by_email "ada@example.org" .user)] := by rfl
  have hroles : w.shared.db.rolesOf 8 = [.user] := by decide +kernel
  have hreach : Reaches .sample notOvertaken (World.start .sample) w :=
    Deployment.sample.reaches_play notOvertaken grantThenSet .sample
  clear_value w
  refine ⟨hroles, (rolesSerial_of_reaches 8 hreach).1 fun e he hl => ?_⟩
  have hmem : (e.pid, e.req) ∈ _ :=
    hlanded ▸ List.mem_map_of_mem (List.mem_filter.mpr ⟨he, by simpa using hl⟩)
  rcases List.mem_pair.mp hmem with heq | heq <;> obtain ⟨hpid, hreq⟩ := Prod.mk.inj heq <;>
    rw [hpid, hreq]
  · exact ⟨_, h₁⟩
  · exact ⟨_, h₀⟩

end SubmitSnap
