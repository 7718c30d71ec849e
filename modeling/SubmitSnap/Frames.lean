import SubmitSnap.Request

/-!
# Frames: what each family of statements leaves alone

A statement of one repository touches a few tables and nothing else. The lemmas here say so once per
family, so that a proof about one table only ever looks at the statements that can change it.

`Part.reachedBy` is the table of it: for each part of the database, the statements that may change
it at all. Deletes are in it with all that they cascade to, and a commit with all that a
transaction of the service writes. Whoever needs to know that a part stays as it was looks it up
there (`Stmt.footprint`), and has to go through the few statements that do reach it and no others.

## Main definitions

* `Part`, `Part.reachedBy` — the parts of the database, and which statements reach them.

## Main results

* `Stmt.footprint` — what a statement does not reach is as it was.
* `Stmt.issued_mono`, `Stmt.clock_eq` — identifiers are never forgotten, and statements take no
  time.
* `Stmt.locks_moved` — every statement keeps to the discipline of the locks.
-/

namespace SubmitSnap

open Interleave

/-! ### Groups of tables -/

structure SameAccounts (db db' : Database) : Prop where
  users : db'.users = db.users
  user_roles : db'.user_roles = db.user_roles
  one_time_tokens : db'.one_time_tokens = db.one_time_tokens

structure SameSessions (db db' : Database) : Prop where
  sessions : db'.sessions = db.sessions
  session_tokens : db'.session_tokens = db.session_tokens

structure SameOrganizations (db db' : Database) : Prop where
  organizations : db'.organizations = db.organizations
  organization_members : db'.organization_members = db.organization_members

structure SameForms (db db' : Database) : Prop where
  forms : db'.forms = db.forms
  submissions : db'.submissions = db.submissions
  file_uploads : db'.file_uploads = db.file_uploads

structure SameWebhooks (db db' : Database) : Prop where
  outbox_events : db'.outbox_events = db.outbox_events
  webhook_endpoints : db'.webhook_endpoints = db.webhook_endpoints
  webhook_deliveries : db'.webhook_deliveries = db.webhook_deliveries

/-- The bucket, the queue, the generated keys and the clock. -/
structure SameOutside (db db' : Database) : Prop where
  bucket : db'.bucket = db.bucket
  multiparts : db'.multiparts = db.multiparts
  jobs : db'.jobs = db.jobs
  issued_keys : db'.issued_keys = db.issued_keys
  clock : db'.clock = db.clock

/-! ### Locking -/

theorem Database.lockAll_eq (p : ℕ) (mode : LockMode) (rows : List Row) (db : Database) :
    ∃ ls, db.lockAll p mode rows = { db with locks := ls } := by
  induction rows generalizing db with
  | nil => exact ⟨db.locks, rfl⟩
  | cons row rows ih =>
    obtain ⟨ls, hls⟩ := ih (db.lock p row mode)
    exact ⟨ls, by rw [Database.lockAll, hls]; rfl⟩

/-! ### Cascades -/

/-- What the deletion of a form, an endpoint, a submission or an organization never reaches. -/
structure CascadeFrame (db db' : Database) : Prop where
  accounts : SameAccounts db db'
  sessions : SameSessions db db'
  outside : SameOutside db db'
  locks : db'.locks = db.locks
  issued : db'.issued = db.issued

theorem CascadeFrame.trans {db₁ db₂ db₃ : Database} (h : CascadeFrame db₁ db₂)
    (h' : CascadeFrame db₂ db₃) : CascadeFrame db₁ db₃ where
  accounts := ⟨h'.accounts.users.trans h.accounts.users,
    h'.accounts.user_roles.trans h.accounts.user_roles,
    h'.accounts.one_time_tokens.trans h.accounts.one_time_tokens⟩
  sessions := ⟨h'.sessions.sessions.trans h.sessions.sessions,
    h'.sessions.session_tokens.trans h.sessions.session_tokens⟩
  outside := ⟨h'.outside.bucket.trans h.outside.bucket,
    h'.outside.multiparts.trans h.outside.multiparts, h'.outside.jobs.trans h.outside.jobs,
    h'.outside.issued_keys.trans h.outside.issued_keys,
    h'.outside.clock.trans h.outside.clock⟩
  locks := h'.locks.trans h.locks
  issued := h'.issued.trans h.issued

theorem Database.cascadeSubmission_frame (db : Database) (gone : Uuid → Bool) :
    CascadeFrame db (db.cascadeSubmission gone) :=
  ⟨⟨rfl, rfl, rfl⟩, ⟨rfl, rfl⟩, ⟨rfl, rfl, rfl, rfl, rfl⟩, rfl, rfl⟩

theorem Database.cascadeEndpoint_frame (db : Database) (gone : Uuid → Bool) :
    CascadeFrame db (db.cascadeEndpoint gone) :=
  ⟨⟨rfl, rfl, rfl⟩, ⟨rfl, rfl⟩, ⟨rfl, rfl, rfl, rfl, rfl⟩, rfl, rfl⟩

theorem Database.cascadeForm_frame (db : Database) (gone : Uuid → Bool) :
    CascadeFrame db (db.cascadeForm gone) := by
  unfold Database.cascadeForm
  extract_lets db₁ db₂
  have h₁ : CascadeFrame db db₁ := db.cascadeSubmission_frame _
  have h₂ : CascadeFrame db₁ db₂ := db₁.cascadeEndpoint_frame _
  exact (h₁.trans h₂).trans ⟨⟨rfl, rfl, rfl⟩, ⟨rfl, rfl⟩, ⟨rfl, rfl, rfl, rfl, rfl⟩, rfl, rfl⟩

theorem Database.cascadeOrganization_frame (db : Database) (gone : Uuid) :
    CascadeFrame db (db.cascadeOrganization gone) := by
  unfold Database.cascadeOrganization
  extract_lets db₁ db₂ db₃
  have h₁ : CascadeFrame db db₁ := db.cascadeForm_frame _
  have h₂ : CascadeFrame db₁ db₂ := db₁.cascadeSubmission_frame _
  have h₃ : CascadeFrame db₂ db₃ := db₂.cascadeEndpoint_frame _
  exact ((h₁.trans h₂).trans h₃).trans
    ⟨⟨rfl, rfl, rfl⟩, ⟨rfl, rfl⟩, ⟨rfl, rfl, rfl, rfl, rfl⟩, rfl, rfl⟩

/-! ### Commits -/

/-- What no commit ever reaches. -/
structure CommitFrame (db db' : Database) : Prop where
  users : db'.users = db.users
  user_roles : db'.user_roles = db.user_roles
  forms : db'.forms = db.forms
  webhook_endpoints : db'.webhook_endpoints = db.webhook_endpoints
  webhook_deliveries : db'.webhook_deliveries = db.webhook_deliveries
  outside : SameOutside db db'
  locks : db'.locks = db.locks
  issued : db'.issued = db.issued

theorem Write.apply_frame (db : Database) (w : Write) : CommitFrame db (w.apply db) := by
  cases w <;> exact ⟨rfl, rfl, rfl, rfl, rfl, ⟨rfl, rfl, rfl, rfl, rfl⟩, rfl, rfl⟩

theorem Write.applyAll_frame (db : Database) (ws : List Write) :
    CommitFrame db (Write.applyAll db ws) := by
  induction ws generalizing db with
  | nil => exact ⟨rfl, rfl, rfl, rfl, rfl, ⟨rfl, rfl, rfl, rfl, rfl⟩, rfl, rfl⟩
  | cons w ws ih =>
    have hw := Write.apply_frame db w
    have hws := ih (w.apply db)
    exact ⟨hws.users.trans hw.users, hws.user_roles.trans hw.user_roles,
      hws.forms.trans hw.forms, hws.webhook_endpoints.trans hw.webhook_endpoints,
      hws.webhook_deliveries.trans hw.webhook_deliveries,
      ⟨hws.outside.bucket.trans hw.outside.bucket,
        hws.outside.multiparts.trans hw.outside.multiparts,
        hws.outside.jobs.trans hw.outside.jobs,
        hws.outside.issued_keys.trans hw.outside.issued_keys,
        hws.outside.clock.trans hw.outside.clock⟩,
      hws.locks.trans hw.locks, hws.issued.trans hw.issued⟩

/-- The submission a commit writes. -/
def Write.stored : Write → Option SubmissionRecord
  | .submission row => some row
  | _ => none

/-- Submissions a commit does not write, under new ids, are the ones that were there. -/
theorem mem_applyAll_submissions {db : Database} {ws : List Write} {row : SubmissionRecord}
    (h : row ∈ (Write.applyAll db ws).submissions.rows) :
    row ∈ db.submissions.rows ∨
      (Write.submission row ∈ ws ∧ db.submissions.hasKey row.id = false) := by
  induction ws generalizing db with
  | nil => exact .inl h
  | cons w ws ih =>
    rw [Write.applyAll_cons] at h
    cases w with
    | submission row' =>
      rcases ih h with hrow | ⟨hws, hnew⟩
      · exact (Table.mem_insertNew.mp hrow).imp_right fun ⟨heq, hnew⟩ =>
          ⟨heq ▸ List.mem_cons_self, heq ▸ hnew⟩
      · refine .inr ⟨List.mem_cons_of_mem _ hws, ?_⟩
        refine Bool.eq_false_iff.mpr fun hkey => Bool.eq_false_iff.mp hnew ?_
        exact Table.hasKey_insertNew.mpr (.inl hkey)
    | _ => exact (ih h).imp_right fun ⟨hws, hnew⟩ => ⟨List.mem_cons_of_mem _ hws, hnew⟩

/-! ### The families -/

section Families

variable {P : Platform} {p : ℕ} {c : Choice} {db db' : Database}

theorem UserStmt.frame {q : UserStmt} {x : Except Failure q.Reply}
    (h : q.run P p db = some (db', x)) :
    SameForms db db' ∧ SameWebhooks db db' ∧ SameOutside db db' ∧
      db'.organizations = db.organizations ∧ db'.issued = db.issued := by
  cases q <;> simp only [UserStmt.run] at h <;> (repeat' split at h) <;>
    first
      | (cases h; exact ⟨⟨rfl, rfl, rfl⟩, ⟨rfl, rfl, rfl⟩, ⟨rfl, rfl, rfl, rfl, rfl⟩, rfl, rfl⟩)
      | cases h

theorem RoleStmt.frame {q : RoleStmt} {x : Except Failure q.Reply}
    (h : q.run p db = some (db', x)) : ∃ t, db' = { db with user_roles := t } := by
  cases q <;> simp only [RoleStmt.run] at h <;> (repeat' split at h) <;>
    first
      | (cases h; exact ⟨_, rfl⟩)
      | cases h

theorem OneTimeTokenStmt.frame {q : OneTimeTokenStmt} {x : Except Failure q.Reply}
    (h : q.run p c db = some (db', x)) :
    ∃ t ls n, db' = { db with one_time_tokens := t, locks := ls, issued := n ++ db.issued } := by
  cases q with
  | outstanding user_id purpose =>
    cases h
    exact ⟨_, _, [], rfl⟩
  | invalidate ids =>
    simp only [OneTimeTokenStmt.run] at h
    split at h
    · cases h
      obtain ⟨ls, hls⟩ := Database.lockAll_eq p .noKeyUpdate _ db
      exact ⟨_, ls, [], hls⟩
    · cases h
  | issue user_id purpose token_hash expires_at now =>
    simp only [OneTimeTokenStmt.run] at h
    (repeat' split at h) <;>
      first
        | (cases h; exact ⟨_, _, [], rfl⟩)
        | (cases h; exact ⟨_, _, [c.id], rfl⟩)
        | cases h
  | consume token_hash purpose =>
    simp only [OneTimeTokenStmt.run] at h
    (repeat' split at h) <;>
      first
        | (cases h; exact ⟨_, _, [], rfl⟩)
        | cases h

theorem SessionStmt.frame {q : SessionStmt} {x : Except Failure q.Reply}
    (h : q.run p c db = some (db', x)) :
    ∃ t ls n, db' = { db with sessions := t, locks := ls, issued := n ++ db.issued } := by
  cases q with
  | insert_session _ _ _ _ _ | insert_token _ _ _ _ | insert_replacement _ _ _ _ =>
    simp only [SessionStmt.run] at h
    (repeat' split at h) <;>
      first
        | (cases h; exact ⟨db.sessions, db.locks, [], rfl⟩)
        | (cases h; exact ⟨db.sessions, _, [c.id], rfl⟩)
        | cases h
  | lookup _ | lock_token _ | lock_session _ | is_active _ _ | revoke _ | active_of _ _
  | revoke_rows _ _ =>
    simp only [SessionStmt.run] at h
    (repeat' split at h) <;>
      first
        | (cases h; exact ⟨_, _, [], rfl⟩)
        | cases h

theorem OrganizationStmt.frame {q : OrganizationStmt} {x : Except Failure q.Reply}
    (h : q.run p c db = some (db', x)) :
    SameAccounts db db' ∧ SameSessions db db' ∧ SameOutside db db' ∧
      ∃ n, db'.issued = n ++ db.issued := by
  cases q with
  | delete id =>
    simp only [OrganizationStmt.run] at h
    split at h
    · cases h
      have hf := db.cascadeOrganization_frame id
      exact ⟨hf.accounts, hf.sessions, hf.outside, [], hf.issued⟩
    · cases h
  | insert_organization _ _ | insert_owner _ _ _ | access _ _ | lock _ | role_of _ _
  | member_of _ _ | rename _ _ | upsert_member _ _ _ _ | remove_member _ _ | owner_count _ =>
    simp only [OrganizationStmt.run] at h
    (repeat' split at h) <;>
      first
        | (cases h; exact ⟨⟨rfl, rfl, rfl⟩, ⟨rfl, rfl⟩, ⟨rfl, rfl, rfl, rfl, rfl⟩, [], rfl⟩)
        | (cases h; exact ⟨⟨rfl, rfl, rfl⟩, ⟨rfl, rfl⟩, ⟨rfl, rfl, rfl, rfl, rfl⟩, [c.id], rfl⟩)
        | cases h

theorem FormStmt.frame {q : FormStmt} {x : Except Failure q.Reply}
    (h : q.run p c db = some (db', x)) :
    SameAccounts db db' ∧ SameSessions db db' ∧ SameOrganizations db db' ∧ SameOutside db db' ∧
      db'.outbox_events = db.outbox_events ∧ db'.locks = db.locks ∧
      ∃ n, db'.issued = n ++ db.issued := by
  cases q with
  | delete organization_id id =>
    simp only [FormStmt.run] at h
    (repeat' split at h) <;>
      first
        | (cases h; exact ⟨⟨rfl, rfl, rfl⟩, ⟨rfl, rfl⟩, ⟨rfl, rfl⟩, ⟨rfl, rfl, rfl, rfl, rfl⟩,
            rfl, rfl, [], rfl⟩)
        | cases h
  | create _ _ _ _ _ | find _ _ | find_by_public_id _ | replace_definition _ _ _ _ _ _ _ _ _
  | set_status _ _ _ | set_public_id _ _ _ =>
    simp only [FormStmt.run] at h
    (repeat' split at h) <;>
      first
        | (cases h; exact ⟨⟨rfl, rfl, rfl⟩, ⟨rfl, rfl⟩, ⟨rfl, rfl⟩, ⟨rfl, rfl, rfl, rfl, rfl⟩,
            rfl, rfl, [], rfl⟩)
        | (cases h; exact ⟨⟨rfl, rfl, rfl⟩, ⟨rfl, rfl⟩, ⟨rfl, rfl⟩, ⟨rfl, rfl, rfl, rfl, rfl⟩,
            rfl, rfl, [c.id], rfl⟩)
        | cases h

theorem SubmissionStmt.frame {q : SubmissionStmt} {x : Except Failure q.Reply}
    (h : q.run p c db = some (db', x)) :
    SameAccounts db db' ∧ SameSessions db db' ∧ SameOrganizations db db' ∧ SameOutside db db' ∧
      db'.forms = db.forms ∧ db'.outbox_events = db.outbox_events ∧
      db'.webhook_endpoints = db.webhook_endpoints ∧ ∃ n, db'.issued = n ++ db.issued := by
  cases q <;> simp only [SubmissionStmt.run] at h <;> (repeat' split at h) <;>
    first
      | (cases h; exact ⟨⟨rfl, rfl, rfl⟩, ⟨rfl, rfl⟩, ⟨rfl, rfl⟩, ⟨rfl, rfl, rfl, rfl, rfl⟩,
          rfl, rfl, rfl, [], rfl⟩)
      | (cases h; exact ⟨⟨rfl, rfl, rfl⟩, ⟨rfl, rfl⟩, ⟨rfl, rfl⟩, ⟨rfl, rfl, rfl, rfl, rfl⟩,
          rfl, rfl, rfl, [c.id], rfl⟩)
      | cases h

theorem UploadStmt.frame {q : UploadStmt} {x : Except Failure q.Reply}
    (h : q.run p c db = some (db', x)) :
    ∃ t ls n, db' = { db with file_uploads := t, locks := ls, issued := n ++ db.issued } := by
  cases q with
  | lock_for_claim form_id object_keys =>
    simp only [UploadStmt.run] at h
    split at h
    · cases h
      obtain ⟨ls, hls⟩ := Database.lockAll_eq p .update _ db
      exact ⟨_, ls, [], hls⟩
    · cases h
  | claim object_keys =>
    simp only [UploadStmt.run] at h
    split at h
    · cases h
      obtain ⟨ls, hls⟩ := Database.lockAll_eq p .noKeyUpdate _ db
      exact ⟨_, ls, [], hls⟩
    · cases h
  | insert _ | abandoned _ _ | forget _ =>
    simp only [UploadStmt.run] at h
    (repeat' split at h) <;>
      first
        | (cases h; exact ⟨_, _, [], rfl⟩)
        | (cases h; exact ⟨_, _, [c.id], rfl⟩)
        | cases h

theorem Database.insertDeliveries_frame (db : Database) (organization_id submission_id : Uuid)
    (payload : Value) (endpoints : List Uuid) (id : Uuid) :
    ∃ t n, db.insertDeliveries organization_id submission_id payload endpoints id =
      { db with webhook_deliveries := t, issued := n ++ db.issued } := by
  induction endpoints generalizing db id with
  | nil => exact ⟨_, [], rfl⟩
  | cons endpoint_id rest ih =>
    rw [Database.insertDeliveries]
    split
    · exact ih db (id + 1)
    · obtain ⟨t, n, h⟩ := ih _ (id + 1)
      exact ⟨t, n ++ [id], by rw [h]; simp [Database.issue]⟩

theorem WebhookStmt.frame {q : WebhookStmt} {x : Except Failure q.Reply}
    (h : q.run p c db = some (db', x)) :
    ∃ es ds n, db' =
      { db with webhook_endpoints := es, webhook_deliveries := ds, issued := n ++ db.issued } := by
  cases q with
  | fan_out_insert organization_id submission_id payload endpoints =>
    simp only [WebhookStmt.run] at h
    (repeat' split at h) <;>
      first
        | (cases h; exact ⟨_, _, [], rfl⟩)
        | (cases h
           obtain ⟨t, n, ht⟩ :=
             Database.insertDeliveries_frame db organization_id submission_id payload endpoints c.id
           exact ⟨_, t, n, ht⟩)
        | cases h
  | create_endpoint _ _ _ _ _ | find_endpoint _ _ | set_endpoint_secret _ _ _
  | update_endpoint _ _ _ | delete_endpoint _ _ | form_belongs_to _ _ | fan_out_scan _ _
  | claim_due_deliveries _ _ | mark_delivered _ _ | record_attempt_failure _ _ _ _ _
  | find_delivery _ _ | requeue_delivery _ _ =>
    simp only [WebhookStmt.run] at h
    (repeat' split at h) <;>
      first
        | (cases h; exact ⟨_, _, [], rfl⟩)
        | (cases h; exact ⟨_, _, [c.id], rfl⟩)
        | cases h

theorem OutboxStmt.frame {q : OutboxStmt} {x : Except Failure q.Reply}
    (h : q.run db = some (db', x)) : ∃ t, db' = { db with outbox_events := t } := by
  cases q <;> simp only [OutboxStmt.run] at h <;> cases h <;> exact ⟨_, rfl⟩

/-! ### Footprints -/

/-- What there is to be changed, but for the locks and the identifiers, which any statement may
take. -/
inductive Part where
  | users
  | user_roles
  | one_time_tokens
  | sessions
  | session_tokens
  | organizations
  | organization_members
  | forms
  | submissions
  | file_uploads
  | outbox_events
  | webhook_endpoints
  | webhook_deliveries
  | bucket
  | multiparts
  | jobs
  | issued_keys
  | clock

/-- The part is as it was. -/
def Part.Same (db db' : Database) : Part → Prop
  | users => db'.users = db.users
  | user_roles => db'.user_roles = db.user_roles
  | one_time_tokens => db'.one_time_tokens = db.one_time_tokens
  | sessions => db'.sessions = db.sessions
  | session_tokens => db'.session_tokens = db.session_tokens
  | organizations => db'.organizations = db.organizations
  | organization_members => db'.organization_members = db.organization_members
  | forms => db'.forms = db.forms
  | submissions => db'.submissions = db.submissions
  | file_uploads => db'.file_uploads = db.file_uploads
  | outbox_events => db'.outbox_events = db.outbox_events
  | webhook_endpoints => db'.webhook_endpoints = db.webhook_endpoints
  | webhook_deliveries => db'.webhook_deliveries = db.webhook_deliveries
  | bucket => db'.bucket = db.bucket
  | multiparts => db'.multiparts = db.multiparts
  | jobs => db'.jobs = db.jobs
  | issued_keys => db'.issued_keys = db.issued_keys
  | clock => db'.clock = db.clock

/-- The statements that may change the part. Only the environment changes the clock. -/
def Part.reachedBy : Part → Stmt → Bool
  | users, .users _ => true
  | user_roles, .roles _ | user_roles, .users (.delete_apply _) => true
  | one_time_tokens, .one_time_tokens _ | one_time_tokens, .users (.delete_apply _)
  | one_time_tokens, .commit _ => true
  | sessions, .sessions _ | sessions, .users (.delete_apply _) | sessions, .commit _ => true
  | session_tokens, .users (.delete_apply _) | session_tokens, .commit _ => true
  | organizations, .organizations _ | organizations, .commit _ => true
  | organization_members, .organizations (.delete _)
  | organization_members, .users (.delete_apply _) | organization_members, .commit _ => true
  | forms, .forms _ | forms, .organizations (.delete _) => true
  | submissions, .submissions _ | submissions, .forms (.delete _ _)
  | submissions, .organizations (.delete _) | submissions, .commit _ => true
  | file_uploads, .uploads _ | file_uploads, .submissions (.delete _ _)
  | file_uploads, .forms (.delete _ _) | file_uploads, .organizations (.delete _)
  | file_uploads, .commit _ => true
  | outbox_events, .outbox _ | outbox_events, .organizations (.delete _)
  | outbox_events, .commit _ => true
  | webhook_endpoints, .webhooks _ | webhook_endpoints, .forms (.delete _ _)
  | webhook_endpoints, .organizations (.delete _) => true
  | webhook_deliveries, .webhooks _ | webhook_deliveries, .submissions (.delete _ _)
  | webhook_deliveries, .forms (.delete _ _)
  | webhook_deliveries, .organizations (.delete _) => true
  | bucket, .put_object _ | bucket, .delete_object _ => true
  | multiparts, .begin_upload _ | multiparts, .write_part _ _ | multiparts, .put_object _
  | multiparts, .abort_upload _ => true
  | jobs, .enqueue _ => true
  | issued_keys, .generate_key => true
  | _, _ => false

theorem UserStmt.footprint {q : UserStmt} {x : Except Failure q.Reply} {part : Part}
    (hpart : part.reachedBy (.users q) = false) (h : q.run P p db = some (db', x)) :
    part.Same db db' := by
  by_cases hdelete : ∃ id, q = .delete_apply id
  · obtain ⟨id, rfl⟩ := hdelete
    simp only [UserStmt.run] at h
    split at h <;> cases h
    cases part <;> first | exact Bool.noConfusion hpart | rfl
  · have hframe : ∃ t ls, db' = { db with users := t, locks := ls } := by
      cases q with
      | delete_apply id => exact absurd ⟨id, rfl⟩ hdelete
      | _ =>
        simp only [UserStmt.run] at h
        (repeat' split at h) <;> cases h <;> exact ⟨_, _, rfl⟩
    obtain ⟨t, ls, rfl⟩ := hframe
    cases part <;> first | exact Bool.noConfusion hpart | rfl

theorem OrganizationStmt.footprint {q : OrganizationStmt} {x : Except Failure q.Reply} {part : Part}
    (hpart : part.reachedBy (.organizations q) = false) (h : q.run p c db = some (db', x)) :
    part.Same db db' := by
  by_cases hdelete : ∃ id, q = .delete id
  · obtain ⟨id, rfl⟩ := hdelete
    simp only [OrganizationStmt.run] at h
    split at h <;> cases h
    have hf := db.cascadeOrganization_frame id
    cases part with
    | users => exact hf.accounts.users
    | user_roles => exact hf.accounts.user_roles
    | one_time_tokens => exact hf.accounts.one_time_tokens
    | sessions => exact hf.sessions.sessions
    | session_tokens => exact hf.sessions.session_tokens
    | bucket => exact hf.outside.bucket
    | multiparts => exact hf.outside.multiparts
    | jobs => exact hf.outside.jobs
    | issued_keys => exact hf.outside.issued_keys
    | clock => exact hf.outside.clock
    | _ => exact Bool.noConfusion hpart
  · have hframe : ∃ t ls n, db' =
        { db with organizations := t, locks := ls, issued := n ++ db.issued } := by
      cases q with
      | delete id => exact absurd ⟨id, rfl⟩ hdelete
      | _ =>
        simp only [OrganizationStmt.run] at h
        (repeat' split at h) <;> cases h
        all_goals first | exact ⟨_, _, [], rfl⟩ | exact ⟨_, _, [c.id], rfl⟩
    obtain ⟨t, ls, n, rfl⟩ := hframe
    cases part <;> first | exact Bool.noConfusion hpart | rfl

theorem FormStmt.footprint {q : FormStmt} {x : Except Failure q.Reply} {part : Part}
    (hpart : part.reachedBy (.forms q) = false) (h : q.run p c db = some (db', x)) :
    part.Same db db' := by
  by_cases hdelete : ∃ organization_id id, q = .delete organization_id id
  · obtain ⟨organization_id, id, rfl⟩ := hdelete
    simp only [FormStmt.run] at h
    (repeat' split at h) <;> cases h
    all_goals cases part <;> first | exact Bool.noConfusion hpart | rfl
  · have hframe : ∃ t n, db' = { db with forms := t, issued := n ++ db.issued } := by
      cases q with
      | delete organization_id id => exact absurd ⟨organization_id, id, rfl⟩ hdelete
      | _ =>
        simp only [FormStmt.run] at h
        (repeat' split at h) <;> cases h
        all_goals first | exact ⟨_, [], rfl⟩ | exact ⟨_, [c.id], rfl⟩
    obtain ⟨t, n, rfl⟩ := hframe
    cases part <;> first | exact Bool.noConfusion hpart | rfl

theorem SubmissionStmt.footprint {q : SubmissionStmt} {x : Except Failure q.Reply} {part : Part}
    (hpart : part.reachedBy (.submissions q) = false) (h : q.run p c db = some (db', x)) :
    part.Same db db' := by
  by_cases hdelete : ∃ organization_id id, q = .delete organization_id id
  · obtain ⟨organization_id, id, rfl⟩ := hdelete
    simp only [SubmissionStmt.run] at h
    (repeat' split at h) <;> cases h
    all_goals cases part <;> first | exact Bool.noConfusion hpart | rfl
  · have hframe : ∃ t ls n, db' =
        { db with submissions := t, locks := ls, issued := n ++ db.issued } := by
      cases q with
      | delete organization_id id => exact absurd ⟨organization_id, id, rfl⟩ hdelete
      | _ =>
        simp only [SubmissionStmt.run] at h
        (repeat' split at h) <;> cases h
        all_goals first | exact ⟨_, _, [], rfl⟩ | exact ⟨_, _, [c.id], rfl⟩
    obtain ⟨t, ls, n, rfl⟩ := hframe
    cases part <;> first | exact Bool.noConfusion hpart | rfl

theorem Write.footprint {ws : List Write} {part : Part}
    (hpart : part.reachedBy (.commit ws) = false) :
    part.Same db (Write.applyAll db ws) := by
  have hf := Write.applyAll_frame db ws
  cases part with
  | users => exact hf.users
  | user_roles => exact hf.user_roles
  | forms => exact hf.forms
  | webhook_endpoints => exact hf.webhook_endpoints
  | webhook_deliveries => exact hf.webhook_deliveries
  | bucket => exact hf.outside.bucket
  | multiparts => exact hf.outside.multiparts
  | jobs => exact hf.outside.jobs
  | issued_keys => exact hf.outside.issued_keys
  | clock => exact hf.outside.clock
  | _ => exact Bool.noConfusion hpart

/-- **What a statement does not reach is as it was.** -/
theorem Stmt.footprint (part : Part) {q : Stmt} {x : Except Failure q.Reply}
    (hpart : part.reachedBy q = false) (h : q.run P p c db = some (db', x)) : part.Same db db' := by
  cases q with
  | users q => exact q.footprint hpart h
  | organizations q => exact q.footprint hpart h
  | forms q => exact q.footprint hpart h
  | submissions q => exact q.footprint hpart h
  | commit ws =>
    cases h
    exact Write.footprint hpart
  | roles q =>
    obtain ⟨t, rfl⟩ := RoleStmt.frame h
    cases part <;> first | exact Bool.noConfusion hpart | rfl
  | one_time_tokens q =>
    obtain ⟨t, ls, n, rfl⟩ := OneTimeTokenStmt.frame h
    cases part <;> first | exact Bool.noConfusion hpart | rfl
  | sessions q =>
    obtain ⟨t, ls, n, rfl⟩ := SessionStmt.frame h
    cases part <;> first | exact Bool.noConfusion hpart | rfl
  | uploads q =>
    obtain ⟨t, ls, n, rfl⟩ := UploadStmt.frame h
    cases part <;> first | exact Bool.noConfusion hpart | rfl
  | webhooks q =>
    obtain ⟨es, ds, n, rfl⟩ := WebhookStmt.frame h
    cases part <;> first | exact Bool.noConfusion hpart | rfl
  | outbox q =>
    obtain ⟨t, rfl⟩ := OutboxStmt.frame h
    cases part <;> first | exact Bool.noConfusion hpart | rfl
  | generate | generate_key | post _ _ =>
    simp only [Stmt.run] at h
    split at h <;> cases h
    all_goals cases part <;> first | exact Bool.noConfusion hpart | rfl
  | begin_tx | rollback | now | check_key _ | begin_upload _ | write_part _ _
  | flush_parts _ | put_object _ | abort_upload _ | delete_object _ | enqueue _
  | queue_reply _ =>
    cases h
    cases part <;> first | exact Bool.noConfusion hpart | rfl

/-- Nothing generated is ever forgotten. -/
theorem Stmt.issued_mono {q : Stmt} {x : Except Failure q.Reply}
    (h : q.run P p c db = some (db', x)) : ∃ n, db'.issued = n ++ db.issued := by
  cases q with
  | users q => exact ⟨[], (UserStmt.frame h).2.2.2.2⟩
  | roles q =>
    obtain ⟨t, rfl⟩ := RoleStmt.frame h
    exact ⟨[], rfl⟩
  | one_time_tokens q =>
    obtain ⟨t, ls, n, rfl⟩ := OneTimeTokenStmt.frame h
    exact ⟨n, rfl⟩
  | sessions q =>
    obtain ⟨t, ls, n, rfl⟩ := SessionStmt.frame h
    exact ⟨n, rfl⟩
  | organizations q => exact (OrganizationStmt.frame h).2.2.2
  | forms q => exact (FormStmt.frame h).2.2.2.2.2.2
  | submissions q => exact (SubmissionStmt.frame h).2.2.2.2.2.2.2
  | uploads q =>
    obtain ⟨t, ls, n, rfl⟩ := UploadStmt.frame h
    exact ⟨n, rfl⟩
  | webhooks q =>
    obtain ⟨es, ds, n, rfl⟩ := WebhookStmt.frame h
    exact ⟨n, rfl⟩
  | outbox q =>
    obtain ⟨t, rfl⟩ := OutboxStmt.frame h
    exact ⟨[], rfl⟩
  | commit ws =>
    cases h
    exact ⟨[], (Write.applyAll_frame db ws).issued⟩
  | generate | generate_key | post _ _ =>
    simp only [Stmt.run] at h
    split at h <;> cases h
    all_goals first | exact ⟨[], rfl⟩ | exact ⟨[c.id], rfl⟩
  | begin_tx | rollback | now | check_key _ | begin_upload _ | write_part _ _
  | flush_parts _ | put_object _ | abort_upload _ | delete_object _ | enqueue _
  | queue_reply _ =>
    cases h
    exact ⟨[], rfl⟩

/-- Only the environment lets time pass. -/
theorem Stmt.clock_eq {q : Stmt} {x : Except Failure q.Reply}
    (h : q.run P p c db = some (db', x)) : db'.clock = db.clock :=
  Stmt.footprint .clock rfl h

theorem clock_of_effect {G : Regime} {r : Request} {q : Stmt} {x : Except Failure q.Reply}
    {s s' : State} (h : G.Effect (store P) p r q s x s') : s'.db.clock = s.db.clock := by
  cases h with
  | fail _ => rfl
  | run _ hrun => exact Stmt.clock_eq hrun

/-! ### Locks -/

theorem Database.lockAll_moved {mode : LockMode} {rows : List Row} (ls : Locks Row)
    (h : ∀ row ∈ rows, db.free p row mode = true) (hls : Locks.Moved p ls db.locks) :
    Locks.Moved p ls (db.lockAll p mode rows).locks := by
  induction rows generalizing db with
  | nil => exact hls
  | cons row rows ih =>
    refine ih (fun row' hrow' => ?_) (hls.acquire (h row List.mem_cons_self))
    exact Locks.grantable_acquire (h row' (List.mem_cons_of_mem _ hrow'))

/-- A statement only takes locks that are granted, and only releases its own. -/
theorem Stmt.locks_moved {q : Stmt} {x : Except Failure q.Reply}
    (h : q.run P p c db = some (db', x)) : Locks.Moved p db.locks db'.locks := by
  have heq : db'.locks = db.locks → Locks.Moved p db.locks db'.locks := fun heq => heq ▸ .refl
  cases q with
  | users q =>
    cases q with
    | delete_check id =>
      simp only [Stmt.run, UserStmt.run] at h
      (repeat' split at h) <;> cases h
      all_goals first | exact .refl | exact .acquire .refl ‹_›
    | delete_apply id =>
      simp only [Stmt.run, UserStmt.run] at h
      split at h <;> cases h
      exact .release .refl
    | find_by_email _ | find_by_id _ | record_login_success _ | reset_login_failures _
    | record_login_failure _ _ _ | update_password _ _ | replace_password_hash _ _
    | mark_email_verified _ | set_status _ _ =>
      simp only [Stmt.run, UserStmt.run] at h
      (repeat' split at h) <;> cases h <;> exact .refl
  | roles q =>
    obtain ⟨t, rfl⟩ := RoleStmt.frame h
    exact .refl
  | one_time_tokens q =>
    cases q with
    | outstanding user_id purpose =>
      cases h
      exact .refl
    | invalidate ids =>
      simp only [Stmt.run, OneTimeTokenStmt.run] at h
      split at h
      · next hfree =>
        cases h
        refine Database.lockAll_moved _ (fun row hrow => ?_) .refl
        obtain ⟨id, hid, rfl⟩ := List.mem_map.mp hrow
        exact List.all_eq_true.mp hfree id hid
      · cases h
    | issue user_id purpose token_hash expires_at now =>
      simp only [Stmt.run, OneTimeTokenStmt.run] at h
      split at h
      · next hfree =>
        have hfree := (Bool.and_eq_true_iff.mp hfree).2
        (repeat' split at h) <;> cases h
        all_goals first | exact .refl | exact .acquire .refl hfree
      · cases h
    | consume token_hash purpose =>
      simp only [Stmt.run, OneTimeTokenStmt.run] at h
      (repeat' split at h) <;> cases h <;> exact .refl
  | sessions q =>
    cases q with
    | insert_session user_id user_agent ip_address expires_at now =>
      simp only [Stmt.run, SessionStmt.run] at h
      split at h
      · next hfree =>
        have hfree := (Bool.and_eq_true_iff.mp hfree).2
        (repeat' split at h) <;> cases h
        all_goals first | exact .refl | exact .acquire .refl hfree
      · cases h
    | lookup token_hash =>
      simp only [Stmt.run, SessionStmt.run] at h
      (repeat' split at h) <;> cases h
      · exact .refl
      · exact .refl
      · next hfree =>
        obtain ⟨htoken, hsession⟩ := Bool.and_eq_true_iff.mp hfree
        exact (Locks.Moved.refl.acquire htoken).acquire (Locks.grantable_acquire hsession)
    | lock_token id | lock_session id =>
      simp only [Stmt.run, SessionStmt.run] at h
      split at h <;> cases h
      exact .acquire .refl ‹_›
    | insert_token _ _ _ _ | insert_replacement _ _ _ _ | is_active _ _ | revoke _ | active_of _ _
    | revoke_rows _ _ =>
      simp only [Stmt.run, SessionStmt.run] at h
      (repeat' split at h) <;> cases h <;> exact .refl
  | organizations q =>
    cases q with
    | delete id =>
      simp only [Stmt.run, OrganizationStmt.run] at h
      split at h <;> cases h
      exact heq (db.cascadeOrganization_frame id).locks
    | insert_organization _ _ | insert_owner _ _ _ | access _ _ | lock _ | role_of _ _
    | member_of _ _ | rename _ _ | upsert_member _ _ _ _ | remove_member _ _ | owner_count _ =>
      simp only [Stmt.run, OrganizationStmt.run] at h
      (repeat' split at h) <;> cases h
      all_goals first | exact .refl | exact .acquire .refl ‹_›
  | forms q => exact heq (FormStmt.frame h).2.2.2.2.2.1
  | submissions q =>
    cases q with
    | insert n now =>
      simp only [Stmt.run, SubmissionStmt.run] at h
      split at h
      · cases h
        exact .refl
      split at h
      · next hfree =>
        obtain ⟨hfree, horganization⟩ := Bool.and_eq_true_iff.mp hfree
        have hform := (Bool.and_eq_true_iff.mp hfree).2
        (repeat' split at h) <;> cases h
        · exact .refl
        · exact .refl
        all_goals
          exact (Locks.Moved.refl.acquire hform).acquire (Locks.grantable_acquire horganization)
      · cases h
    | find _ _ | page_after _ _ _ | distinct_answer_keys _ | set_status _ _ _ | delete _ _ =>
      simp only [Stmt.run, SubmissionStmt.run] at h
      (repeat' split at h) <;> cases h <;> exact .refl
  | uploads q =>
    cases q with
    | lock_for_claim form_id object_keys =>
      simp only [Stmt.run, UploadStmt.run] at h
      split at h
      · next hfree =>
        cases h
        refine Database.lockAll_moved _ (fun row hrow => ?_) .refl
        obtain ⟨u, hu, rfl⟩ := List.mem_map.mp hrow
        exact List.all_eq_true.mp hfree u hu
      · cases h
    | claim object_keys =>
      simp only [Stmt.run, UploadStmt.run] at h
      split at h
      · next hfree =>
        cases h
        refine Database.lockAll_moved _ (fun row hrow => ?_) .refl
        obtain ⟨id, hid, rfl⟩ := List.mem_map.mp hrow
        exact List.all_eq_true.mp hfree id hid
      · cases h
    | insert _ | abandoned _ _ | forget _ =>
      simp only [Stmt.run, UploadStmt.run] at h
      (repeat' split at h) <;> cases h <;> exact .refl
  | webhooks q =>
    obtain ⟨es, ds, n, rfl⟩ := WebhookStmt.frame h
    exact .refl
  | outbox q =>
    obtain ⟨t, rfl⟩ := OutboxStmt.frame h
    exact .refl
  | commit ws =>
    cases h
    exact (Write.applyAll_frame db ws).locks ▸ .release .refl
  | rollback =>
    cases h
    exact .release .refl
  | generate | generate_key | post _ _ =>
    simp only [Stmt.run] at h
    split at h <;> cases h <;> exact .refl
  | begin_tx | now | check_key _ | begin_upload _ | write_part _ _
  | flush_parts _ | put_object _ | abort_upload _ | delete_object _ | enqueue _
  | queue_reply _ =>
    cases h
    exact .refl

theorem locks_moved_of_effect {G : Regime} {r : Request} {q : Stmt} {x : Except Failure q.Reply}
    {s s' : State} (h : G.Effect (store P) p r q s x s') :
    Locks.Moved p s.db.locks s'.db.locks := by
  cases h with
  | fail _ => exact .release .refl
  | run _ hrun => exact Stmt.locks_moved hrun

end Families

end SubmitSnap
