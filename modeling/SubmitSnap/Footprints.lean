import SubmitSnap.Frames

/-!
# Footprints: which statements the shared services issue

Most requests authenticate, open or revoke sessions, and render an account on the side. What these
pieces issue is recorded here once, as a class of statements they stay inside, so that a proof about
another table can skip them.

## Deadlines

A deadline is computed in the middle of many of these pieces, and the computation panics where no
moment is that far away. So each of them has one more way to end, without a statement; a proof
that follows one of them has to say what is then the case (`wp_expires_at_bind`).

## Main definitions

* `Stmt.onSessions`, `Stmt.onSessionRows` — the statements of the session machinery and of looking
  at an account.
-/

namespace SubmitSnap

open Interleave
open Interleave.Script

/-- The session tables, the transaction around them, and reading an account. -/
def Stmt.onSessions : Stmt → Prop
  | sessions _ | begin_tx | commit _ | rollback | now | generate | users (.find_by_id _)
  | roles (.roles_for_user _) => True
  | _ => False

/-- Writes of a submission and what comes with it. -/
def Write.ofSubmission : Write → Bool
  | submission _ | claim_uploads _ _ | outbox_event _ => true
  | _ => false

/-- The same statements, where a commit writes no submission. -/
def Stmt.onSessionRows : Stmt → Prop
  | commit writes => cond (writes.any Write.ofSubmission) False True
  | q => q.onSessions

theorem Stmt.onSessionRows.onSessions {q : Stmt} (h : q.onSessionRows) : q.onSessions := by
  cases q with
  | commit _ => trivial
  | _ => exact h

variable {P : Platform} {d : Deployment}

theorem transaction_issues {ε α : Type} [Raises Failure ε] {P : Stmt → Prop}
    {body : Timestamp → Code ε α} (hbegin : P .begin_tx) (hbody : ∀ now, (body now).Issues P)
    (hrollback : P .rollback) : (transaction body).Issues P :=
  ((issues_query hbegin).bind hbody).ensuring hrollback

/-! ### Deadlines -/

section Deadline

variable {ε α : Type} [Raises Failure ε] {now : Timestamp} {n : ℕ}

/-- A deadline is computed without a look at the world. -/
theorem expires_at_issues {P : Stmt → Prop} : (expires_at now n : Code ε Timestamp).Issues P :=
  issues_unwrap _

/-- What comes after a deadline has to be right for the moment that was asked for, if there is such
a moment. -/
theorem wp_expires_at_bind {G : Regime} {L : Logic G (store P)} {p : ℕ} {r : Request} {s : State}
    {f : Timestamp → Code ε α} {Φ : Except ε α → State → Prop}
    (hok : deadline now n = some (now + seconds n) → L.wp p r (f (now + seconds n)) Φ s)
    (hpanic : deadline now n = none →
      ∀ s', L.Env p s s' → Φ (.error (Raises.raise Failure.panicked)) s') :
    L.wp p r (expires_at now n >>= f) Φ s := by
  refine Logic.wp_unwrap_bind (fun t ht => ?_) hpanic
  obtain rfl := deadline_eq ht
  exact hok ht

end Deadline

section Transaction

variable {G : Regime} {L : Logic G (store P)} {p : ℕ} {r : Request} {ε α : Type}
  [Raises Failure ε] {body : Timestamp → Code ε α} {s : State}

/-- A transaction, whose postcondition has to survive its end. -/
theorem wp_transaction_post {Φ : Except ε α → State → Prop} (hbegin : ∀ s, L.pre p r .begin_tx s)
    (hrollback : ∀ s, L.pre p r .rollback s) (hs : L.inv s)
    (hbody : ∀ s₁ now s₂, L.Env p s s₁ → G.Effect (store P) p r .begin_tx s₁ (.ok now) s₂ →
      L.inv s₂ → L.wp p r (body now) Φ s₂)
    (hfail : ∀ s₁ e s₂ s₃, L.Env p s s₁ → G.Effect (store P) p r .begin_tx s₁ (.error e) s₂ →
      L.Env p s₂ s₃ → Φ (.error (Raises.raise e)) s₃)
    (hend : ∀ y s₁ s₂ x s₃ s₄, Φ y s₁ → L.Env p s₁ s₂ → G.Effect (store P) p r .rollback s₂ x s₃ →
      L.Env p s₃ s₄ → Φ y s₄) : L.wp p r (transaction body) Φ s := by
  refine Logic.wp_ensuring hs (Logic.wp_mono (?_ : L.wp p r _ Φ s) ?_)
  · refine Logic.wp_query_bind fun s₁ he₁ => ⟨hbegin s₁, fun now s₂ hx₂ hs₂ => ?_,
      fun e s₂ hx₂ _ s₃ he₃ => hfail s₁ e s₂ s₃ he₁ hx₂ he₃⟩
    exact hbody s₁ now s₂ he₁ hx₂ hs₂
  · exact fun y s₁ _ hy s₂ he₂ => ⟨hrollback s₂, fun x s₃ hx₃ _ s₄ he₄ =>
      hend y s₁ s₂ x s₃ s₄ hy he₂ hx₃ he₄⟩

/-- A transaction of which nothing has to be known afterwards. -/
theorem wp_transaction (hbegin : ∀ s, L.pre p r .begin_tx s)
    (hrollback : ∀ s, L.pre p r .rollback s) (hs : L.inv s)
    (hbody : ∀ now s', L.inv s' → L.wp p r (body now) (fun _ _ => True) s') :
    L.wp p r (transaction body) (fun _ _ => True) s :=
  wp_transaction_post hbegin hrollback hs (fun _ now s₂ _ _ hs₂ => hbody now s₂ hs₂)
    (fun _ _ _ _ _ _ _ => trivial) fun _ _ _ _ _ _ _ _ _ _ => trivial

end Transaction

namespace IdentityService

theorem public_user_issues (user : UserRecord) : (public_user user).Issues Stmt.onSessionRows :=
  (issues_query trivial).bind fun _ => issues_ret

theorem revoke_sessions_issues (user_id : Uuid) (keep : Option Uuid) :
    (revoke_sessions user_id keep).Issues Stmt.onSessionRows :=
  (issues_query trivial).bind fun _ => issues_query trivial

end IdentityService

namespace SessionRepository

theorem create_issues (user_id : Uuid) (token_hash : TokenHash) (client : ClientInfo)
    (session_expires_at token_expires_at : Timestamp) :
    (create user_id token_hash client session_expires_at token_expires_at).Issues
      Stmt.onSessionRows :=
  transaction_issues trivial (fun _ =>
    (issues_query trivial).bind fun _ =>
    (issues_query trivial).bind fun _ =>
    (issues_query trivial).bind fun _ => issues_ret) trivial

theorem rotate_issues (lookup : TokenLookup) (new_hash : TokenHash)
    (new_expires_at now : Timestamp) :
    (rotate lookup new_hash new_expires_at now).Issues Stmt.onSessionRows :=
  (issues_query trivial).bind fun _ =>
  (issues_query trivial).bind fun _ =>
  (issues_query trivial).bind fun _ =>
  (issues_query trivial).bind fun _ => issues_ret

theorem refresh_issues (presented_hash new_hash : TokenHash) (new_expires_at : Timestamp) :
    (refresh presented_hash new_hash new_expires_at).Issues Stmt.onSessionRows := by
  refine transaction_issues trivial (fun now => (issues_query trivial).bind fun found => ?_) trivial
  cases found with
  | none => exact issues_ret
  | some lookup =>
    dsimp only
    split
    · exact issues_ret
    · refine (issues_query trivial).bind fun _ => ?_
      split
      · exact issues_ret
      · exact rotate_issues lookup new_hash new_expires_at now

end SessionRepository

namespace OrganizationService

/-- Looking up an organization as one of its members. -/
theorem access_issues {P : Stmt → Prop} {organization_id user_id : Uuid}
    (haccess : P (.organizations (.access organization_id user_id))) :
    (access organization_id user_id).Issues P := by
  refine (issues_query haccess).bind fun found => ?_
  cases found with
  | none => exact issues_throw
  | some row =>
    dsimp only
    split
    · exact issues_throw
    · exact issues_ret

theorem require_manager_issues {P : Stmt → Prop} (role : OrganizationRole) :
    (require_manager role).Issues P := by
  unfold require_manager
  split
  · exact issues_ret
  · exact issues_throw

end OrganizationService

namespace FormService

theorem manager_access_issues {P : Stmt → Prop} {organization_id actor_id : Uuid}
    (haccess : P (.organizations (.access organization_id actor_id))) :
    (manager_access organization_id actor_id).Issues P :=
  (OrganizationService.access_issues haccess).mapError.bind fun _ =>
    (OrganizationService.require_manager_issues _).mapError

theorem load_issues {P : Stmt → Prop} {organization_id form_id : Uuid}
    (hfind : P (.forms (.find organization_id form_id))) :
    (load organization_id form_id).Issues P := by
  refine (issues_query hfind).bind fun found => ?_
  cases found with
  | none => exact issues_throw
  | some form => exact issues_ret

theorem load_published_issues {P : Stmt → Prop} {public_id : String}
    (hfind : P (.forms (.find_by_public_id public_id))) : (load_published public_id).Issues P := by
  refine (issues_query hfind).bind fun found => ?_
  cases found with
  | none => exact issues_throw
  | some form =>
    dsimp only
    split
    · exact issues_ret
    · exact issues_throw
    · exact issues_throw

theorem require_issues {P : Stmt → Prop} {α : Type} (y : Except FormError α) :
    (require y).Issues P := by
  cases y <;> trivial

/-- Streaming a body only writes parts. -/
theorem stream_upload_issues {P : Stmt → Prop} {key : String}
    (hwrite : ∀ bytes, P (.write_part key bytes)) (declared : Option String) (limit : ℕ)
    (body : List Chunk) (st : StreamState) :
    (stream_upload key declared limit body st).Issues P := by
  induction body generalizing st with
  | nil => exact (Script.Issues.when fun _ => require_issues _).bind fun _ => issues_ret
  | cons chunk body ih =>
    refine Script.Issues.bind ?_ fun st => ih st
    cases chunk with
    | error e =>
      rw [stream_chunk]
      split <;> exact issues_throw
    | ok chunk =>
      refine Script.Issues.bind ?_ fun total => ?_
      · unfold UploadWriter.write
        dsimp only
        split
        · exact issues_throw
        · exact (issues_query (hwrite chunk)).bind fun _ => issues_ret
      · split
        · exact (require_issues _).bind fun _ => issues_ret
        · exact issues_ret

/-- The task behind an export only reads pages. -/
theorem export_rows_issues {d : Deployment} {P : Stmt → Prop} {format : ExportFormat}
    {form_id : Uuid} {columns : List String}
    (hpage : ∀ after, P (.submissions (.page_after form_id after EXPORT_BATCH))) (rounds : ℕ)
    (after : Option (Timestamp ×ₗ Uuid)) (first_row : Bool) :
    (export_rows d format form_id columns rounds after first_row).Issues P := by
  induction rounds generalizing after first_row with
  | zero => exact issues_ret
  | succ rounds ih =>
    refine (Script.issues_attempt (hpage after)).bind fun answer => ?_
    cases answer with
    | error e => exact issues_ret
    | ok batch =>
      dsimp only
      split
      · exact issues_ret
      · exact (ih _ _).bind fun _ => issues_ret

theorem export_submissions_issues {d : Deployment} {P : Stmt → Prop} {format : ExportFormat}
    {organization_id form_id actor_id : Uuid} {rounds : ℕ}
    (haccess : P (.organizations (.access organization_id actor_id)))
    (hfind : P (.forms (.find organization_id form_id)))
    (hkeys : P (.submissions (.distinct_answer_keys form_id)))
    (hpage : ∀ after, P (.submissions (.page_after form_id after EXPORT_BATCH))) :
    (export_submissions d organization_id form_id actor_id format rounds).Issues P :=
  (OrganizationService.access_issues haccess).mapError.bind fun _ =>
    (load_issues hfind).bind fun _ => (issues_query hkeys).bind fun _ =>
    (export_rows_issues hpage rounds none true).bind fun _ => issues_ret

/-- Completing an upload. -/
theorem finish_issues {P : Stmt → Prop} {key : String} (hflush : P (.flush_parts key))
    (hput : P (.put_object key)) (habort : P (.abort_upload key)) :
    (UploadWriter.finish key d.platform).Issues P := by
  have hgive_up : ∀ e, (UploadWriter.give_up key e).Issues P := fun _ =>
    (issues_query habort).bind fun _ => issues_throw
  refine (Script.issues_attempt hflush).bind fun flushed => ?_
  cases flushed with
  | error e =>
    dsimp only
    split
    · exact hgive_up e
    · exact issues_throw
  | ok _ =>
    refine (Script.issues_attempt hput).bind fun completed => ?_
    cases completed with
    | ok _ => exact issues_ret
    | error e => exact hgive_up e

end FormService

namespace WebhookService

theorem manager_access_issues {P : Stmt → Prop} {organization_id actor_id : Uuid}
    (haccess : P (.organizations (.access organization_id actor_id))) :
    (manager_access organization_id actor_id).Issues P :=
  ((OrganizationService.access_issues haccess).bind fun _ =>
    OrganizationService.require_manager_issues _).mapError

theorem require_issues {P : Stmt → Prop} {α : Type} (y : Except WebhookError α) :
    (require y).Issues P := by
  cases y <;> trivial

theorem if_some_issues {P : Stmt → Prop} {α : Type} {x : Option α}
    {check : α → Code WebhookError Unit} (hcheck : ∀ a, (check a).Issues P) :
    (if_some x check).Issues P := by
  cases x with
  | some a => exact hcheck a
  | none => exact issues_ret

theorem ensure_form_issues {P : Stmt → Prop} {organization_id form_id : Uuid}
    (hbelongs : P (.webhooks (.form_belongs_to organization_id form_id))) :
    (ensure_form_belongs_to organization_id form_id).Issues P := by
  refine (issues_query hbelongs).bind fun found => ?_
  split
  · exact issues_ret
  · exact issues_throw

end WebhookService

namespace AuthService

theorem issue_issues (user_id session_id : Uuid) :
    (issue d user_id session_id).Issues Stmt.onSessionRows :=
  (issues_query trivial).bind fun _ => issues_ret

theorem start_session_issues (user_id : Uuid) (client : ClientInfo) :
    (start_session d user_id client).Issues Stmt.onSessionRows :=
  (issues_query trivial).bind fun _ =>
  (issues_query trivial).bind fun _ => expires_at_issues.bind fun _ =>
  (issues_query trivial).bind fun _ => expires_at_issues.bind fun _ =>
  (SessionRepository.create_issues _ _ _ _ _).bind fun _ =>
  (issue_issues _ _).bind fun _ => issues_ret

theorem session_user_issues (user_id : Uuid) :
    (session_user user_id).Issues Stmt.onSessionRows := by
  refine (issues_query trivial).mapError.bind fun found => ?_
  cases found with
  | none => exact issues_throw
  | some user =>
    dsimp only
    split
    · exact issues_throw
    · exact (IdentityService.public_user_issues user).mapError

theorem refresh_issues (refresh_token : SecretToken) :
    (refresh d refresh_token).Issues Stmt.onSessionRows := by
  refine (issues_query trivial).bind fun _ => (issues_query trivial).bind fun _ =>
    expires_at_issues.bind fun _ => (SessionRepository.refresh_issues _ _ _).bind fun outcome => ?_
  cases outcome with
  | rotated user_id session_id =>
    exact (session_user_issues user_id).bind fun _ => (issue_issues _ _).bind fun _ => issues_ret
  | reused _ session_id => exact (issues_query trivial).bind fun _ => issues_throw
  | invalid => exact issues_throw

theorem logout_issues (session_id : Uuid) : (logout session_id).Issues Stmt.onSessionRows :=
  issues_query trivial

theorem logout_all_issues (user_id : Uuid) : (logout_all user_id).Issues Stmt.onSessionRows :=
  (issues_query trivial).bind fun _ => (issues_query trivial).bind fun _ => issues_ret

theorem authenticate_issues (claims : AccessClaims) :
    (authenticate d claims).Issues Stmt.onSessionRows := by
  refine (issues_query trivial).bind fun now => ?_
  split
  · exact issues_throw
  · refine (issues_query trivial).bind fun active => ?_
    split
    · exact issues_throw
    · exact (session_user_issues _).bind fun _ => issues_ret

end AuthService

end SubmitSnap
