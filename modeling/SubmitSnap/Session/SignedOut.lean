import SubmitSnap.Auth.Admitted
import SubmitSnap.Tenant.Confined
import SubmitSnap.Session.Rotation

/-!
# Signed out for good

A session that has been signed out is never live again, in any run of the requests. Its row
may go with its account, but it does not come back: the identifier of a session is given to one
request, which commits the session once, and whoever revokes a session finds it committed. So its
access token admits nobody who comes later, and no refresh that comes later is answered with a new
one.

## The argument

A session that is gone from the table might come back if an identifier were used again, or if
somebody still held a session that was generated but not committed yet. Neither can happen:
identifiers are drawn fresh, and `OpenPre` lets a process commit a session only if it generated it
and has not committed it before (`sessionIds.Held`). Hence a session that has once been committed
is never inserted again, and whatever the changes of its row preserve holds of it for good,
whether the row is there or not (`Remains`). A revocation is preserved by every change, so a
session that has ended has ended for good.

The second half is about what a request has done when it ends well: it has revoked what it found
(`wp_signs_out`), and it is given an access token only for a session it generated or was shown
while it was not revoked (`wp_vouched`). Whoever comes later can do neither of the two for a
session that has ended.

## Main definitions

* `sessionIds` — the life of the identifier of a session.
* `Remains` — what can be said of a session that there has been, if it is still there.
* `Request.signs_out` — the sessions a request signs out.
* `SignedOut` — a session is of no use to anybody who comes later.

## Main results

* `Ended.of_reaches` — a session that has ended has ended for good.
* `signed_out` — a request that signs a session out has ended it when it ends well.
-/

namespace SubmitSnap

open Interleave
open Interleave.Script

/-- The identifier of a session is given by the insert that generates it, and used by the commit. -/
def sessionIds : Naming Event ℕ where
  gives p n
    | ⟨p', _, _, .sessions (.insert_session _ _ _ _ _), .ok row⟩ => p' = p ∧ n = row.id
    | _ => False
  uses p n
    | ⟨p', _, _, .commit ws, .ok ()⟩ => p' = p ∧ ∃ row, Write.session row ∈ ws ∧ row.id = n
    | _ => False

/-- A session that was there before the trace began. -/
def oldSession (db₀ : Database) (n : ℕ) : Prop := ∃ row ∈ db₀.sessions.rows, row.id = n

/-- There has been a session with this identifier. -/
abbrev KnownSession (db₀ : Database) (session_id : Uuid) (log : List Event) : Prop :=
  sessionIds.Used (oldSession db₀) session_id log

/-- Whoever commits a session has generated it and has not committed it before. -/
def OpenPre (p : ℕ) (s : State) : Stmt → Prop
  | .commit ws => ∀ row, Write.session row ∈ ws → sessionIds.Held p row.id s.log
  | _ => True

/-- The logic of opening sessions. -/
def openLogic (P : Platform) (G : Regime) : Logic G (store P) := .ofPre fun p _ q s => OpenPre p s q

/-- Every identifier is given once, and used by whoever it was given to; and every session there
is has been committed by somebody. The second part connects the log with the table: from a row one
may conclude that its identifier has been used up, so that nobody holds it any more and nobody can
commit it again. Every statement keeps it because a new row comes from a commit only
(`Stmt.session_origin`), and a commit is an event of the log. -/
structure OpenInv (db₀ : Database) (s : State) : Prop where
  fresh : sessionIds.Fresh (oldSession db₀) (· ∈ s.db.issued) s.log
  known : ∀ row ∈ s.db.sessions.rows, KnownSession db₀ row.id s.log

/-- There has been such a session, and if it is still there, `φ` holds of it. That there has been
one is what rules out that it comes back: without it the second part would be void for an
identifier that somebody is about to use. -/
structure Remains (db₀ : Database) (φ : SessionRecord → Prop) (session_id : Uuid) (s : State) :
    Prop where
  known : KnownSession db₀ session_id s.log
  left : ∀ row ∈ s.db.sessions.rows, row.id = session_id → φ row

/-- There has been such a session, and it is gone or revoked. -/
abbrev Ended (db₀ : Database) : Uuid → State → Prop := Remains db₀ fun row => row.revoked_at ≠ none

section Facts

variable {P : Platform} {G : Regime} {p p' : ℕ} {r : Request} {q : Stmt} {c : Choice}
  {x : Except Failure q.Reply} {s s' : State} {db db' db₀ : Database} {n : ℕ} {e : Event}
  {row' : SessionRecord} {session_id : Uuid} {φ : SessionRecord → Prop}

theorem pid_of_givesId (h : sessionIds.gives p n e) : e.pid = p := by
  unfold sessionIds at h
  dsimp only at h
  split at h
  · exact h.1
  · exact h.elim

theorem pid_of_usesId (h : sessionIds.uses p n e) : e.pid = p := by
  unfold sessionIds at h
  dsimp only at h
  split at h
  · exact h.1
  · exact h.elim

theorem heldId_of_others (h : sessionIds.Held p n s.log) (he : Others p s s') :
    sessionIds.Held p n s'.log :=
  (he.since_iff (fun _ => pid_of_givesId) fun _ => pid_of_usesId).mpr h

/-- An identifier is kept over everything but a commit. -/
theorem heldId_of_effect (h : sessionIds.Held p n s.log) (hx : G.Effect (store P) p r q s x s')
    (hq : ∀ ws, q ≠ .commit ws) : sessionIds.Held p n s'.log := by
  rw [Naming.Held, hx.log_eq]
  refine .inr ⟨fun huses => ?_, h⟩
  unfold sessionIds at huses
  dsimp only at huses
  split at huses
  · next heq =>
    cases heq
    exact hq _ rfl
  · exact huses

/-- What a commit leaves of a session is what was there, or what it writes. -/
theorem mem_applyAll_sessions {ws : List Write}
    (h : row' ∈ (Write.applyAll db ws).sessions.rows) :
    (∃ row ∈ db.sessions.rows, row.Becomes row') ∨
      ∃ row, Write.session row ∈ ws ∧ row.Becomes row' := by
  induction ws generalizing db with
  | nil => exact .inl ⟨row', h, .refl row'⟩
  | cons w ws ih =>
    rw [Write.applyAll_cons] at h
    rcases ih h with ⟨row₁, hrow₁, hbecomes⟩ | ⟨row, hws, hbecomes⟩
    · cases w with
      | session row =>
        rcases Table.mem_insertNew.mp hrow₁ with hrow₁ | ⟨rfl, -⟩
        · exact .inl ⟨row₁, hrow₁, hbecomes⟩
        · exact .inr ⟨row₁, List.mem_cons_self, hbecomes⟩
      | touch_session id now =>
        obtain ⟨row, hrow, ⟨-, rfl⟩ | ⟨-, rfl⟩⟩ := Table.of_mem_updateWhere hrow₁
        · have htouched : row.Becomes { row with last_used_at := now } :=
            ⟨rfl, rfl, rfl, fun h => h⟩
          exact .inl ⟨row, hrow, htouched.trans hbecomes⟩
        · exact .inl ⟨row₁, hrow, hbecomes⟩
      | _ => exact .inl ⟨row₁, hrow₁, hbecomes⟩
    · exact .inr ⟨row, List.mem_cons_of_mem _ hws, hbecomes⟩

/-- **Where a session comes from**: it was there, or it is committed now. -/
theorem Stmt.session_origin (h : q.run P p c s.db = some (db', x))
    (hrow' : row' ∈ db'.sessions.rows) :
    (∃ row ∈ s.db.sessions.rows, row.Becomes row') ∨
      sessionIds.uses p row'.id ⟨p, r, s.db, q, x⟩ := by
  cases hreach : Part.sessions.reachedBy q with
  | false =>
    have hsame : db'.sessions = s.db.sessions := Stmt.footprint .sessions hreach h
    exact .inl ⟨row', hsame ▸ hrow', .refl row'⟩
  | true =>
    cases q with
    | users q =>
      cases q with
      | delete_apply u =>
        simp only [Stmt.run, UserStmt.run] at h
        split at h <;> cases h
        exact .inl ⟨row', (Table.mem_deleteWhere.mp hrow').1, .refl row'⟩
      | _ => cases hreach
    | sessions q =>
      have hmove : SessionMove p r s db' (.sessions q) x := SessionStmt.sessionMove h
      rcases hmove.session_origin hrow' with hold | ⟨t, -, heq⟩
      · exact .inl hold
      · cases heq
    | commit ws =>
      cases h
      rcases mem_applyAll_sessions hrow' with hold | ⟨row, hws, hbecomes⟩
      · exact .inl hold
      · exact .inr ⟨rfl, row, hws, hbecomes.id.symm⟩
    | _ => cases hreach

/-- A session that a statement uses was held. -/
theorem OpenPre.held (hpre : OpenPre p s q) (h : sessionIds.uses p' n ⟨p, r, s.db, q, x⟩) :
    sessionIds.Held p' n s.log := by
  obtain rfl := pid_of_usesId h
  unfold sessionIds at h
  dsimp only at h
  split at h
  · next heq =>
    cases heq
    obtain ⟨-, row, hws, rfl⟩ := h
    exact hpre row hws
  · exact h.elim

/-- An identifier that is given is new. -/
theorem new_of_givesId (hrun : q.run P p c s.db = some (db', x))
    (hg : sessionIds.gives p' n ⟨p, r, s.db, q, x⟩) : n ∉ s.db.issued ∧ n ∈ db'.issued := by
  unfold sessionIds at hg
  dsimp only at hg
  split at hg
  · next heq =>
    cases heq
    obtain ⟨-, rfl⟩ := hg
    simp only [Stmt.run, SessionStmt.run] at hrun
    split at hrun
    · next hfree =>
      (repeat' split at hrun) <;> cases hrun
      exact ⟨of_decide_eq_true (Bool.and_eq_true_iff.mp hfree).1, List.mem_cons_self⟩
    · cases hrun
  · exact hg.elim
/-- Every statement keeps it, if commits are of sessions that are held. The identifier of a new
session is one the database has not issued, so nobody else holds it; a commit uses up what the
process holds; and a row that is new in the table has been committed by this very statement. -/
theorem OpenInv.effect (hs : OpenInv db₀ s) (hpre : OpenPre p s q)
    (hx : G.Effect (store P) p r q s x s') : OpenInv db₀ s' := by
  have hmono : ∀ {n}, KnownSession db₀ n s.log → KnownSession db₀ n s'.log :=
    fun hn => hn.mono fun _ => hx.mem
  have hlog := hx.log_eq
  have huses : ∀ p' n, sessionIds.uses p' n ⟨p, r, s.db, q, x⟩ → sessionIds.Held p' n s.log :=
    fun _ _ => hpre.held
  have hself := hx.mem_self
  cases hx with
  | fail _ =>
    refine ⟨hs.fresh.cons (fun _ hn => hn) (fun p' n hg => ?_) huses,
      fun row hrow => hmono (hs.known row hrow)⟩
    unfold sessionIds at hg
    dsimp only at hg
    split at hg
    · next heq => cases heq
    · exact hg.elim
  | run _ hrun =>
    refine ⟨hs.fresh.cons (fun n hn => ?_) (fun p' n hg => ?_) huses, fun row' hrow' => ?_⟩
    · obtain ⟨new, hnew⟩ := Stmt.issued_mono hrun
      rw [Shared.push_db, hnew]
      exact List.mem_append_right _ hn
    · obtain ⟨hunused, hissued⟩ := new_of_givesId (r := r) hrun hg
      exact ⟨hunused, hissued, fun p'' hg' => (pid_of_givesId hg').symm.trans (pid_of_givesId hg)⟩
    · rcases Stmt.session_origin (r := r) hrun hrow' with ⟨row, hrow, hbecomes⟩ | huse
      · exact hbecomes.id ▸ hmono (hs.known row hrow)
      · exact .inr ⟨_, hself, p, huse⟩

/-- **A session does not begin again**: what its changes preserve holds on. If the row is there
after the statement, it was there before and has changed as rows of sessions do, or it has been
committed now. The latter would use an identifier that has been used before. -/
theorem Remains.effect (h : Remains db₀ φ session_id s)
    (hφ : ∀ {row row'}, row.Becomes row' → φ row → φ row') (hs : OpenInv db₀ s)
    (hpre : OpenPre p s q) (hx : G.Effect (store P) p r q s x s') :
    Remains db₀ φ session_id s' := by
  refine ⟨h.known.mono fun _ => hx.mem, fun row' hrow' hid => ?_⟩
  cases hx with
  | fail _ => exact h.left row' hrow' hid
  | run _ hrun =>
    rcases Stmt.session_origin (r := r) hrun hrow' with ⟨row, hrow, hbecomes⟩ | huse
    · exact hφ hbecomes (h.left row hrow (hbecomes.id.symm.trans hid))
    · exact absurd h.known (hid ▸ (hs.fresh.held _ _ (hpre.held huse)).2)

/-- What is revoked by its identifier is revoked. -/
theorem revoked_of_revokeSessions {revokes : SessionRecord → Bool} {now : Timestamp}
    (hrow' : row' ∈ (db.revokeSessions revokes now).sessions.rows)
    (hrevokes : ∀ row, row.id = row'.id → revokes row = true) : row'.revoked_at ≠ none := by
  obtain ⟨row, -, ⟨-, rfl⟩ | ⟨hnot, rfl⟩⟩ := Table.of_mem_updateWhere hrow'
  · exact nofun
  · intro hlive
    rw [hrevokes row' rfl, hlive] at hnot
    exact absurd hnot (by decide)

theorem revoked_of_revoke
    (hx : G.Effect (store P) p r (.sessions (.revoke session_id)) s (.ok ()) s')
    (hrow' : row' ∈ s'.db.sessions.rows) (hid : row'.id = session_id) : row'.revoked_at ≠ none := by
  obtain ⟨-, c, db', hrun, rfl⟩ := hx.of_ok
  simp only [store, Stmt.run, SessionStmt.run] at hrun
  split at hrun
  · cases hrun
    exact revoked_of_revokeSessions hrow' fun row hrow => beq_iff_eq.mpr (hrow.trans hid)
  · cases hrun

theorem revoked_of_revoke_rows {ids : List Uuid} {now : Timestamp} {n : ℕ}
    (hx : G.Effect (store P) p r (.sessions (.revoke_rows ids now)) s (.ok n) s')
    (hrow' : row' ∈ s'.db.sessions.rows) (hid : row'.id ∈ ids) : row'.revoked_at ≠ none := by
  obtain ⟨-, c, db', hrun, rfl⟩ := hx.of_ok
  simp only [store, Stmt.run, SessionStmt.run] at hrun
  split at hrun
  · cases hrun
    exact revoked_of_revokeSessions hrow' fun row hrow => decide_eq_true (hrow ▸ hid)
  · cases hrun

end Facts

/-! ### Every request commits a session once

Most requests commit no session at all, which can be seen from their statements. Those that open
one generate it and commit it, once, on every path. -/

section Scripts

variable {P : Platform} {d : Deployment} {G : Regime} {p : ℕ} {r : Request} {s : State} {ε α : Type}

/-- The statements that commit no session. -/
def Stmt.opensNothing (q : Stmt) : Prop := ∀ p s, OpenPre p s q

theorem opensNothing_commit {ws : List Write} (h : ∀ w ∈ ws, w.opens = false) :
    (Stmt.commit ws).opensNothing := by
  intro p s row hrow
  cases h _ hrow

theorem Stmt.onAccountRows.opensNothing {q : Stmt} (h : q.onAccountRows) : q.opensNothing := by
  cases q with
  | commit ws =>
    refine opensNothing_commit fun w hw => ?_
    by_contra hopens
    have hany : (ws.any fun w => w.opens || w.ofSubmission) = true :=
      List.any_eq_true.mpr ⟨w, hw, by rw [Bool.eq_true_of_not_eq_false hopens, Bool.true_or]⟩
    rw [Stmt.onAccountRows, hany] at h
    exact h.elim
  | _ => exact fun _ _ => trivial

theorem wp_of_opensNothing {x : Code ε α} (hx : x.Issues Stmt.opensNothing) :
    (openLogic P G).wp p r x (fun _ _ => True) s :=
  Logic.wp_of_does Stmt.opensNothing (fun _ _ => True) (fun _ => True) (fun _ => True)
    (fun _ _ => trivial) (fun hq _ _ => hq _ _) (fun _ _ _ _ _ => ⟨trivial, trivial⟩)
    (fun _ _ => trivial) hx.does trivial

theorem wp_of_onAccountRows {x : Code ε α} (hx : x.Issues Stmt.onAccountRows) :
    (openLogic P G).wp p r x (fun _ _ => True) s :=
  wp_of_opensNothing (hx.mono fun _ => Stmt.onAccountRows.opensNothing)

/-- A session is committed by whoever generated it, and once. -/
theorem wp_create_opens {user_id : Uuid} {token_hash : TokenHash} {client : ClientInfo}
    {session_expires_at token_expires_at : Timestamp} :
    (openLogic P G).wp p r (SessionRepository.create user_id token_hash client session_expires_at
      token_expires_at) (fun _ _ => True) s := by
  refine wp_transaction (fun _ => trivial) (fun _ => trivial) trivial fun now s₁ _ => ?_
  refine Logic.wp_query_bind fun s₂ he₂ => ⟨trivial, fun session s₃ hx₃ _ => ?_,
    fun _ _ _ _ _ _ => trivial⟩
  have hheld : sessionIds.Held p session.id s₃.log := by
    rw [Naming.Held, hx₃.log_eq]
    exact .inl ⟨rfl, rfl⟩
  refine Logic.wp_query_bind fun s₄ he₄ => ⟨trivial, fun token s₅ hx₅ _ => ?_,
    fun _ _ _ _ _ _ => trivial⟩
  have hheld₅ : sessionIds.Held p session.id s₅.log := by
    refine heldId_of_effect (heldId_of_others hheld he₄.others) hx₅ ?_
    intro ws heq
    cases heq
  refine Logic.wp_query_bind fun s₆ he₆ => ⟨?_, fun _ _ _ _ _ _ => trivial,
    fun _ _ _ _ _ _ => trivial⟩
  intro row hrow
  rcases List.mem_cons.mp hrow with heq | hrow
  · cases heq
    exact heldId_of_others hheld₅ he₆.others
  · cases List.mem_singleton.mp hrow

theorem wp_start_session_opens (user_id : Uuid) (client : ClientInfo) :
    (openLogic P G).wp p r (AuthService.start_session d user_id client) (fun _ _ => True) s := by
  refine Logic.wp_query_bind fun s₁ _ => ⟨trivial, fun token s₂ _ _ => ?_,
    fun _ _ _ _ _ _ => trivial⟩
  refine Logic.wp_query_bind fun s₃ _ => ⟨trivial, fun session_now s₄ _ _ => ?_,
    fun _ _ _ _ _ _ => trivial⟩
  refine wp_expires_at_bind (fun _ => ?_) fun _ _ _ => trivial
  refine Logic.wp_query_bind fun s₅ _ => ⟨trivial, fun token_now s₆ _ _ => ?_,
    fun _ _ _ _ _ _ => trivial⟩
  refine wp_expires_at_bind (fun _ => ?_) fun _ _ _ => trivial
  refine Logic.wp_seq trivial wp_create_opens fun session_id s₇ _ => wp_of_onAccountRows ?_
  exact ((issues_query trivial).bind fun _ => issues_ret).bind fun _ => issues_ret

theorem wp_login_opens (email password : String) (client : ClientInfo) :
    (openLogic P G).wp p r (AuthService.login d email password client) (fun _ _ => True) s := by
  refine Logic.wp_seq trivial (wp_of_onAccountRows
    (IdentityService.verify_credentials_onAccountRows email password).mapError) fun user s₁ _ => ?_
  refine Logic.wp_seq trivial (wp_start_session_opens user.id client) fun started s₂ _ => ?_
  exact wp_of_onAccountRows
    ((IdentityService.public_user_onAccountRows user).mapError.bind fun _ => issues_ret)

theorem submit_opensNothing (public_id : String) (payload : Map) (client : ClientInfo)
    (referer : Option String) :
    (FormService.submit d public_id payload client referer).Issues Stmt.opensNothing := by
  have hwrites : ∀ row event, ∀ w ∈ FormService.submission_writes row event, w.opens = false := by
    intro row event w hw
    rcases List.mem_cons.mp hw with rfl | hw
    · rfl
    · obtain ⟨ev, -, rfl⟩ := List.mem_map.mp hw
      rfl
  refine (FormService.load_published_issues fun _ _ => trivial).bind fun form =>
    (issues_query fun _ _ => trivial).bind fun allowed => ?_
  split
  · exact issues_throw
  split
  · exact issues_throw
  dsimp only
  split
  · refine Issues.bind ?_ fun _ => issues_ret
    exact transaction_issues (fun _ _ => trivial) (fun _ => (issues_query fun _ _ => trivial).bind
      fun written => (issues_query (opensNothing_commit (hwrites _ _))).bind fun _ => issues_ret)
      fun _ _ => trivial
  · refine Issues.bind ?_ fun _ => issues_ret
    refine transaction_issues (fun _ _ => trivial) (fun _ => (issues_query fun _ _ => trivial).bind
      fun recorded => (FormService.require_issues _).bind fun metadata =>
      (issues_query fun _ _ => trivial).bind fun written =>
      (issues_query fun _ _ => trivial).bind fun claimed => ?_) fun _ _ => trivial
    split
    · exact issues_throw
    · refine (issues_query (opensNothing_commit fun w hw => ?_)).bind fun _ => issues_ret
      rcases List.mem_append.mp hw with hw | hw
      · exact hwrites _ _ w hw
      · obtain rfl := List.mem_singleton.mp hw
        rfl

theorem upload_opensNothing (public_id field_key : String) (filename declared_type : Option String)
    (body : List Chunk) :
    (FormService.upload d public_id field_key filename declared_type body).Issues
      Stmt.opensNothing := by
  have hrecord : ∀ upload, (FormService.record_upload upload).Issues Stmt.opensNothing := by
    refine fun upload => (issues_attempt fun _ _ => trivial).bind fun x => ?_
    cases x with
    | ok row => trivial
    | error e => exact (issues_attempt fun _ _ => trivial).bind fun _ => trivial
  unfold FormService.upload
  split
  · exact issues_throw
  refine (FormService.load_published_issues fun _ _ => trivial).bind fun form =>
    (issues_query fun _ _ => trivial).bind fun allowed => ?_
  split
  · exact issues_throw
  cases FormService.upload_target form field_key declared_type with
  | error e => exact issues_throw
  | ok target =>
    refine (issues_query fun _ _ => trivial).bind fun key =>
      (issues_query fun _ _ => trivial).bind fun _ =>
        (FormService.stream_upload_issues (fun _ _ _ => trivial) _ _ _ _).result.bind fun y => ?_
    cases y with
    | error e => exact (issues_attempt fun _ _ => trivial).bind fun _ => trivial
    | ok size =>
      exact (FormService.finish_issues (fun _ _ => trivial) (fun _ _ => trivial)
        fun _ _ => trivial).bind fun _ => hrecord _

/-- **Every request** commits only sessions it has generated, each of them once. -/
theorem wp_opens (r : Request) :
    (openLogic d.platform G).wp p r (Request.code d r) (fun _ _ => True) s := by
  by_cases haccounts : r.onAccounts
  · by_cases hopens : r.opensSession
    · cases r with
      | login email password client => exact wp_login_opens email password client
      | open_session user_id client =>
        exact Logic.wp_seq trivial (wp_start_session_opens user_id client) fun _ _ _ _ _ => trivial
      | _ => exact hopens.elim
    · exact wp_of_onAccountRows (Request.issues_onAccountRows haccounts hopens)
  by_cases hpass : r.isPass
  · refine wp_of_opensNothing ((Request.unserved hpass).mono fun q hq => ?_)
    cases q with
    | commit ws => exact absurd trivial hq
    | _ => exact fun _ _ => trivial
  cases hscope : r.scope with
  | some scope =>
    refine Logic.wp_of_ofPre (wp_within r) fun q s' _ hwithin => ?_
    have hq := hwithin scope hscope
    cases q with
    | commit ws =>
      refine opensNothing_commit (fun w hw => ?_) p s'
      have howner : w.belongs_to = some scope.organization_id := hq w hw
      cases w with
      | session row => cases howner
      | _ => rfl
    | _ => trivial
  | none =>
    cases r with
    | create_organization name actor_id =>
      refine wp_of_opensNothing
        (OrganizationService.create_issues name actor_id (fun _ _ => trivial)
        (fun _ _ _ => trivial) (fun _ _ _ _ => trivial) (fun row owner => ?_) fun _ _ => trivial)
      exact opensNothing_commit (by simp [Write.opens])
    | submit public_id payload client referer =>
      exact wp_of_opensNothing (submit_opensNothing public_id payload client referer)
    | upload public_id field_key filename declared_type body =>
      exact wp_of_opensNothing (upload_opensNothing _ _ _ _ _)
    | reap_abandoned_uploads =>
      exact wp_of_opensNothing (FormService.reap_abandoned_uploads_issues (fun _ _ => trivial)
        (fun _ _ _ _ => trivial) (fun _ _ _ => trivial) fun _ _ _ => trivial)
    | deliver_webhooks | dispatch_outbox => exact absurd trivial hpass
    | login _ _ _ | refresh _ | authenticate _ | logout _ | logout_all _ | change_password _ _ _
    | reset_password _ _ | request_password_reset _ | resend_verification _ | verify_email _
    | administer _ _ | as_admin _ _ | unlock_account _ | revoke_account_sessions _
    | grant_role_by_email _ _ | open_session _ _ | revoke_others _ _ =>
      exact absurd trivial haccounts
    | _ => cases hscope

end Scripts

/-! ### What a request has done when it ends well

What counts is not that a revocation was tried but that it succeeded, for the sessions that were
found before; a session that is opened in between is not found, and is not signed out. -/

/-- One session, or all those of an account, perhaps except one. -/
inductive Selection where
  | session (session_id : Uuid)
  | account (user_id : Uuid) (keep : Option Uuid)

/-- The session is one of them. -/
def Selection.Covers : Selection → SessionRecord → Prop
  | session session_id, row => row.id = session_id
  | account user_id keep, row => row.user_id = user_id ∧ some row.id ≠ keep

/-- What a request signs out. -/
def Request.signs_out : Request → Option Selection
  | logout session_id => some (.session session_id)
  | change_password claims _ _ => some (.account claims.sub (some claims.sid))
  | logout_all user_id | revoke_account_sessions user_id
  | administer (.set_status user_id .disabled) _ | as_admin _ (.set_status user_id .disabled) =>
    some (.account user_id none)
  | revoke_others user_id keep => some (.account user_id (some keep))
  | _ => none

/-- The access token a request is answered with. -/
def Request.issued : (r : Request) → r.Res → Option AccessClaims
  | login _ _ _, answer => some (answer : IssuedSession).access_token
  | refresh _, answer => some (answer : IssuedSession).access_token
  | _, _ => none

/-- `p` has revoked what it has found of a selection. -/
def Revokes (p : ℕ) (log : List Event) : Selection → Prop
  | .session session_id =>
    ∃ r before, ⟨p, r, before, .sessions (.revoke session_id), .ok ()⟩ ∈ log
  | .account user_id keep => ∃ r before now ids r' before' n,
    ⟨p, r, before, .sessions (.active_of user_id keep), .ok (now, ids)⟩ ∈ log ∧
      ⟨p, r', before', .sessions (.revoke_rows ids now), .ok n⟩ ∈ log

/-- `p` has generated the session, or was shown a token of it while it was not revoked. -/
inductive Vouched (p : ℕ) (session_id : Uuid) (log : List Event) : Prop where
  | generated {r : Request} {before : Database} {user_id : Uuid} {user_agent ip : Option String}
      {expires_at now : Timestamp} {row : SessionRecord}
      (h : ⟨p, r, before, .sessions (.insert_session user_id user_agent ip expires_at now),
        .ok row⟩ ∈ log) (hid : row.id = session_id)
  | shown {r : Request} {before : Database} {token_hash : TokenHash} {lookup : TokenLookup}
      (h : ⟨p, r, before, .sessions (.lookup token_hash), .ok (some lookup)⟩ ∈ log)
      (hid : lookup.session_id = session_id) (hlive : lookup.session_revoked_at = none)

/-- The logic that asks nothing of anybody. Its postconditions can still speak of the log, which
records what a process has done and been answered; that is all the two theorems about single
requests need. -/
def traceLogic (P : Platform) (G : Regime) : Logic G (store P) := .ofPre fun _ _ _ _ => True

section Endings

variable {P : Platform} {d : Deployment} {G : Regime} {p : ℕ} {r : Request} {s s' : State}
  {log log' : List Event} {session_id : Uuid} {selection : Selection} {ε α β : Type}

theorem Revokes.mono (h : Revokes p log selection) (hlog : ∀ e ∈ log, e ∈ log') :
    Revokes p log' selection := by
  cases selection with
  | session session_id =>
    obtain ⟨r, before, hmem⟩ := h
    exact ⟨r, before, hlog _ hmem⟩
  | account user_id keep =>
    obtain ⟨r, before, now, ids, r', before', n, hfound, hrevoked⟩ := h
    exact ⟨r, before, now, ids, r', before', n, hlog _ hfound, hlog _ hrevoked⟩

theorem Vouched.mono (h : Vouched p session_id log) (hlog : ∀ e ∈ log, e ∈ log') :
    Vouched p session_id log' := by
  cases h with
  | generated h hid => exact .generated (hlog _ h) hid
  | shown h hid hlive => exact .shown (hlog _ h) hid hlive

theorem wp_trace (x : Code ε α) : (traceLogic P G).wp p r x (fun _ _ => True) s :=
  Logic.wp_of_pre (fun _ => trivial) x s

/-- What the first half has revoked is still revoked after the second. -/
theorem wp_revokes_bind {x : Code ε β} {f : β → Code ε α}
    (hx : (traceLogic P G).wp p r x (fun y s' => ∀ b, y = .ok b → Revokes p s'.log selection) s) :
    (traceLogic P G).wp p r (x >>= f)
      (fun y s' => ∀ a, y = .ok a → Revokes p s'.log selection) s := by
  refine Logic.wp_bind trivial hx (fun b s₁ _ hb => ?_) fun _ _ _ _ => nofun
  refine Logic.wp_mono (Logic.wp_grows (wp_trace (f b)) (fun _ he => he)) fun y s₂ _ h a _ => ?_
  exact (hb b rfl).mono h.2

/-- What the second half revokes. -/
theorem wp_revokes_after {x : Code ε β} {f : β → Code ε α}
    (hf : ∀ b s', (traceLogic P G).wp p r (f b)
      (fun y s' => ∀ a, y = .ok a → Revokes p s'.log selection) s') :
    (traceLogic P G).wp p r (x >>= f)
      (fun y s' => ∀ a, y = .ok a → Revokes p s'.log selection) s :=
  Logic.wp_bind trivial (wp_trace x) (fun b s' _ _ => hf b s') fun _ _ _ _ => nofun

theorem wp_revoke_sessions (user_id : Uuid) (keep : Option Uuid) :
    (traceLogic P G).wp p r (IdentityService.revoke_sessions user_id keep)
      (fun y s' => ∀ n, y = .ok n → Revokes p s'.log (.account user_id keep)) s := by
  refine Logic.wp_query_bind fun s₁ _ => ⟨trivial, fun found s₂ hx₂ _ => ?_,
    fun _ _ _ _ _ _ _ => nofun⟩
  obtain ⟨now, ids⟩ := found
  refine Logic.wp_query fun s₃ he₃ => ⟨trivial, fun n s₄ hx₄ _ s₅ he₅ _ _ => ?_,
    fun _ _ _ _ _ _ _ => nofun⟩
  exact ⟨r, _, now, ids, r, _, n, he₅.others.mem (hx₄.mem (he₃.others.mem hx₂.mem_self)),
    he₅.others.mem hx₄.mem_self⟩

theorem wp_set_account_status_revokes (target_id actor_id : Uuid) :
    (traceLogic P G).wp p r (IdentityService.set_account_status target_id .disabled actor_id)
      (fun y s' => ∀ a, y = .ok a → Revokes p s'.log (.account target_id none)) s := by
  unfold IdentityService.set_account_status
  split
  · exact fun _ _ _ => nofun
  refine wp_revokes_after fun found s₁ => ?_
  split
  · exact fun _ _ _ => nofun
  · exact wp_revokes_bind (wp_revokes_bind (wp_revoke_sessions target_id none))

theorem wp_find_by_id {f : IdentityError → ε} (id : Uuid) :
    (traceLogic P G).wp p r (mapError f (ask (.users (.find_by_id id))))
      (fun y _ => ∀ found, y = .ok found → ∀ user ∈ found, user.id = id) s := by
  refine wp_mapError_ok (Logic.wp_query fun s₁ _ => ⟨trivial, fun found s₂ hx _ s₃ _ => ?_,
    fun _ _ _ _ _ _ _ => nofun⟩)
  rintro found' heq
  cases heq
  exact id_of_find_by_id hx

theorem wp_session_user_id (user_id : Uuid) :
    (traceLogic P G).wp p r (AuthService.session_user user_id)
      (fun y _ => ∀ user, y = .ok user → user.id = user_id) s := by
  refine Logic.wp_bind trivial (wp_find_by_id user_id) (fun found s₁ _ hfound => ?_)
    fun _ _ _ _ => nofun
  cases found with
  | none => exact fun _ _ _ => nofun
  | some user =>
    dsimp only
    split
    · exact fun _ _ _ => nofun
    · refine wp_mapError_ok (Logic.wp_query_bind fun s₂ _ => ⟨trivial,
        fun roles s₃ _ _ s₄ _ user' heq => ?_, fun _ _ _ _ _ _ _ => nofun⟩)
      cases heq
      exact hfound _ rfl user rfl

/-- Whoever is let in is the account of the token, in its session. -/
theorem wp_authenticate_sub (claims : AccessClaims) :
    (traceLogic P G).wp p r (AuthService.authenticate d claims) (fun y _ => ∀ user, y = .ok user →
      user.user.id = claims.sub ∧ user.session_id = claims.sid) s := by
  refine Logic.wp_query_bind fun s₁ _ => ⟨trivial, fun now s₂ _ _ => ?_,
    fun _ _ _ _ _ _ _ => nofun⟩
  split
  · exact fun _ _ _ => nofun
  refine Logic.wp_query_bind fun s₃ _ => ⟨trivial, fun active s₄ _ _ => ?_,
    fun _ _ _ _ _ _ _ => nofun⟩
  cases active with
  | false => exact fun _ _ _ => nofun
  | true =>
    refine Logic.wp_bind trivial (wp_session_user_id claims.sub)
      (fun user s₅ _ hid s₆ _ user' heq => ?_) fun _ _ _ _ => nofun
    cases heq
    exact ⟨hid user rfl, rfl⟩

/-- A password change keeps the session it is made in. -/
theorem wp_change_password_revokes (claims : AccessClaims)
    (current_password new_password : String) :
    (traceLogic d.platform G).wp p r (change_password d claims current_password new_password)
      (fun y s' => ∀ a, y = .ok a →
        Revokes p s'.log (.account claims.sub (some claims.sid))) s := by
  refine Logic.wp_bind trivial (wp_mapError_ok (wp_authenticate_sub claims))
    (fun user s₁ _ huser => ?_) fun _ _ _ _ => nofun
  obtain ⟨hsub, hsid⟩ := huser user rfl
  refine Logic.wp_bind trivial (wp_find_by_id user.user.id) (fun found s₂ _ hfound => ?_)
    fun _ _ _ _ => nofun
  cases found with
  | none => exact fun _ _ _ => nofun
  | some record =>
    rw [← hsub, ← hfound _ rfl record rfl, ← hsid]
    refine wp_mapError_ok ?_
    unfold IdentityService.change_password
    split
    · exact fun _ _ _ => nofun
    · exact wp_revokes_after fun _ _ => wp_revokes_after fun _ _ =>
        wp_revokes_bind (wp_revoke_sessions record.id (some user.session_id))

/-- **A request that signs out** has revoked what it found, when it ends well. -/
theorem wp_signs_out (r : Request) :
    (traceLogic d.platform G).wp p r (Request.code d r)
      (fun y s' => ∀ a, y = .ok a → ∀ selection ∈ r.signs_out, Revokes p s'.log selection) s := by
  cases hr : r.signs_out with
  | none => exact Logic.wp_mono (wp_trace _) fun _ _ _ _ _ _ _ => nofun
  | some selection =>
    have hkept : ∀ {y : Except r.Err r.Res} {s' : State},
        (∀ a, y = .ok a → Revokes p s'.log selection) →
        ∀ a, y = .ok a → ∀ selection' ∈ some selection, Revokes p s'.log selection' := by
      rintro y s' h a ha selection' heq
      cases heq
      exact h a ha
    refine Logic.wp_mono (Ψ := fun y s' => ∀ a, y = .ok a → Revokes p s'.log selection) ?_
      fun _ _ _ => hkept
    cases r with
    | logout session_id =>
      cases hr
      exact Logic.wp_query fun s₁ he₁ => ⟨trivial,
        fun _ s₂ hx₂ _ s₃ he₃ _ _ => ⟨_, _, he₃.others.mem hx₂.mem_self⟩,
        fun _ _ _ _ _ _ _ => nofun⟩
    | logout_all user_id =>
      cases hr
      refine Logic.wp_query_bind fun s₁ _ => ⟨trivial, fun found s₂ hx₂ _ => ?_,
        fun _ _ _ _ _ _ _ => nofun⟩
      obtain ⟨now, ids⟩ := found
      refine Logic.wp_query_bind fun s₃ he₃ => ⟨trivial, fun n s₄ hx₄ _ s₅ he₅ _ _ => ?_,
        fun _ _ _ _ _ _ _ => nofun⟩
      exact ⟨_, _, now, ids, _, _, n, he₅.others.mem (hx₄.mem (he₃.others.mem hx₂.mem_self)),
        he₅.others.mem hx₄.mem_self⟩
    | change_password claims current_password new_password =>
      cases hr
      exact wp_change_password_revokes claims current_password new_password
    | revoke_account_sessions target_id =>
      cases hr
      exact wp_revokes_after fun _ _ => wp_revoke_sessions target_id none
    | revoke_others user_id keep =>
      cases hr
      exact wp_revokes_bind (wp_revoke_sessions user_id (some keep))
    | administer op actor_id =>
      cases op with
      | set_status target_id status =>
        cases status <;> cases hr
        exact wp_revokes_bind (wp_set_account_status_revokes target_id actor_id)
      | _ => cases hr
    | as_admin claims op =>
      cases op with
      | set_status target_id status =>
        cases status <;> cases hr
        refine wp_revokes_after fun user s₁ => wp_revokes_after fun _ s₂ => ?_
        exact wp_mapError_ok (wp_revokes_bind
          (wp_set_account_status_revokes target_id user.user.id))
      | _ => cases hr
    | _ => cases hr

/-! ### What an access token is answered for

A token is issued for a session that the process has generated itself or found by a refresh token,
and in the second case the session was not revoked when it was found. -/

theorem wp_create_vouched {user_id : Uuid} {token_hash : TokenHash} {client : ClientInfo}
    {session_expires_at token_expires_at : Timestamp} :
    (traceLogic P G).wp p r (SessionRepository.create user_id token_hash client session_expires_at
      token_expires_at) (fun y s' => ∀ id, y = .ok id → Vouched p id s'.log) s := by
  refine wp_transaction_post (fun _ => trivial) (fun _ => trivial) trivial
    (fun s₁ now s₂ _ _ _ => ?_) (fun _ _ _ _ _ _ _ _ => nofun)
    fun y s₁ s₂ x s₃ s₄ h he₂ hx₃ he₄ id hid => (h id hid).mono fun _ he =>
      he₄.others.mem (hx₃.mem (he₂.others.mem he))
  refine Logic.wp_query_bind fun s₃ he₃ => ⟨trivial, fun session s₄ hx₄ _ => ?_,
    fun _ _ _ _ _ _ _ => nofun⟩
  have hvouched : Vouched p session.id s₄.log := .generated hx₄.mem_self rfl
  refine Logic.wp_mono (Logic.wp_grows (Φ := fun y _ => ∀ id, y = .ok id → id = session.id)
    ?_ fun _ he => he) fun y s₅ _ h id hid => ?_
  · refine Logic.wp_query_bind fun s₅ _ => ⟨trivial, fun token s₆ _ _ => ?_,
      fun _ _ _ _ _ _ _ => nofun⟩
    refine Logic.wp_query_bind fun s₇ _ => ⟨trivial, fun _ s₈ _ _ s₉ _ id hid => ?_,
      fun _ _ _ _ _ _ _ => nofun⟩
    cases hid
    rfl
  · rw [h.1 id hid]
    exact hvouched.mono h.2

/-- The access token that is issued is that of the session it is issued for. -/
theorem wp_issue_sid (user_id session_id : Uuid) :
    (traceLogic P G).wp p r (AuthService.issue d user_id session_id)
      (fun y _ => ∀ claims, y = .ok claims → claims.sid = session_id) s := by
  refine Logic.wp_query_bind fun s₁ _ => ⟨trivial, fun now s₂ _ _ s₃ _ claims heq => ?_,
    fun _ _ _ _ _ _ _ => nofun⟩
  cases heq
  rfl

/-- What follows the issue of an access token for a session that is vouched for. -/
theorem wp_issue_bind {user_id : Uuid} {f : AccessClaims → Code AuthError α}
    (ofAnswer : α → AccessClaims) (h : Vouched p session_id s.log)
    (hf : ∀ claims s', (traceLogic P G).wp p r (f claims)
      (fun y _ => ∀ a, y = .ok a → ofAnswer a = claims) s') :
    (traceLogic P G).wp p r (AuthService.issue d user_id session_id >>= f)
      (fun y s' => ∀ a, y = .ok a → Vouched p (ofAnswer a).sid s'.log) s := by
  refine Logic.wp_bind trivial (Logic.wp_grows (wp_issue_sid user_id session_id) fun _ he => he)
    (fun claims s₁ _ hclaims => ?_) fun _ _ _ _ _ => nofun
  refine Logic.wp_mono (Logic.wp_grows (hf claims s₁) fun _ he => he) fun y s₂ _ hanswer a ha => ?_
  rw [hanswer.1 a ha, hclaims.1 claims rfl]
  exact h.mono fun e he => hanswer.2 e (hclaims.2 e he)

theorem wp_start_session_vouched (user_id : Uuid) (client : ClientInfo) :
    (traceLogic P G).wp p r (AuthService.start_session d user_id client)
      (fun y s' => ∀ a, y = .ok a → Vouched p a.1.sid s'.log) s := by
  refine Logic.wp_query_bind fun s₁ _ => ⟨trivial, fun token s₂ _ _ => ?_,
    fun _ _ _ _ _ _ _ => nofun⟩
  refine Logic.wp_query_bind fun s₃ _ => ⟨trivial, fun session_now s₄ _ _ => ?_,
    fun _ _ _ _ _ _ _ => nofun⟩
  refine wp_expires_at_bind (fun _ => ?_) fun _ _ _ _ => nofun
  refine Logic.wp_query_bind fun s₅ _ => ⟨trivial, fun token_now s₆ _ _ => ?_,
    fun _ _ _ _ _ _ _ => nofun⟩
  refine wp_expires_at_bind (fun _ => ?_) fun _ _ _ _ => nofun
  refine Logic.wp_bind trivial wp_create_vouched (fun session_id s₇ _ hvouched => ?_)
    fun _ _ _ _ => nofun
  refine wp_issue_bind Prod.fst (hvouched session_id rfl) fun claims s₈ s₉ _ a heq => ?_
  cases heq
  rfl

theorem wp_login_vouched (email password : String) (client : ClientInfo) :
    (traceLogic P G).wp p r (AuthService.login d email password client)
      (fun y s' => ∀ a, y = .ok a → Vouched p a.access_token.sid s'.log) s := by
  refine Logic.wp_bind trivial (wp_trace _) (fun user s₁ _ _ => ?_) fun _ _ _ _ => nofun
  refine Logic.wp_bind trivial (wp_start_session_vouched user.id client)
    (fun started s₂ _ hvouched => ?_) fun _ _ _ _ => nofun
  obtain ⟨access_token, refresh_token⟩ := started
  have h := hvouched _ rfl
  refine Logic.wp_bind trivial (Logic.wp_grows (wp_trace _) fun _ he => he)
    (fun user' s₃ _ hlog s₄ he₄ a heq => ?_) fun _ _ _ _ => nofun
  cases heq
  exact h.mono fun e he => he₄.others.mem (hlog.2 e he)

theorem wp_refresh_tx_vouched {presented_hash new_hash : TokenHash} {new_expires_at : Timestamp} :
    (traceLogic P G).wp p r (SessionRepository.refresh presented_hash new_hash new_expires_at)
      (fun y s' => ∀ user_id session_id, y = .ok (.rotated user_id session_id) →
        Vouched p session_id s'.log) s := by
  refine wp_transaction_post (fun _ => trivial) (fun _ => trivial) trivial
    (fun s₁ tx_now s₂ _ _ _ => ?_) (fun _ _ _ _ _ _ _ _ _ => nofun)
    fun y s₁ s₂ x s₃ s₄ h he₂ hx₃ he₄ user_id session_id heq =>
      (h user_id session_id heq).mono fun _ he => he₄.others.mem (hx₃.mem (he₂.others.mem he))
  refine Logic.wp_query_bind fun s₃ _ => ⟨trivial, fun found s₄ hx₄ _ => ?_,
    fun _ _ _ _ _ _ _ _ => nofun⟩
  cases found with
  | none => exact fun _ _ _ _ => nofun
  | some lookup =>
    dsimp only
    split
    · exact fun _ _ _ _ => nofun
    refine Logic.wp_query_bind fun s₅ he₅ => ⟨trivial, fun now s₆ hx₆ _ => ?_,
      fun _ _ _ _ _ _ _ _ => nofun⟩
    split
    · exact fun _ _ _ _ => nofun
    next hlive =>
    have hrevoked : lookup.session_revoked_at = none := by
      simp only [Bool.or_eq_true, not_or, Option.not_isSome_iff_eq_none] at hlive
      exact hlive.1.1
    have hvouched : Vouched p lookup.session_id s₆.log :=
      .shown (hx₆.mem (he₅.others.mem hx₄.mem_self)) rfl hrevoked
    refine Logic.wp_mono (Logic.wp_grows (Φ := fun y _ => ∀ user_id session_id,
      y = .ok (.rotated user_id session_id) → session_id = lookup.session_id) ?_ fun _ he => he)
      fun y s₇ _ h user_id session_id heq => ?_
    · refine Logic.wp_bind trivial (wp_trace _) (fun replacement s₇ _ _ => ?_)
        fun _ _ _ _ _ => nofun
      refine Logic.wp_bind trivial (wp_trace _) (fun _ s₈ _ _ => ?_) fun _ _ _ _ _ => nofun
      refine Logic.wp_bind trivial (wp_trace _) (fun _ s₉ _ _ => ?_) fun _ _ _ _ _ => nofun
      refine Logic.wp_bind trivial (wp_trace _) (fun _ s₁₀ _ _ s₁₁ _ user_id session_id heq => ?_)
        fun _ _ _ _ _ => nofun
      cases heq
      rfl
    · rw [h.1 user_id session_id heq]
      exact hvouched.mono h.2

theorem wp_refresh_vouched (refresh_token : SecretToken) :
    (traceLogic P G).wp p r (AuthService.refresh d refresh_token)
      (fun y s' => ∀ a, y = .ok a → Vouched p a.access_token.sid s'.log) s := by
  refine Logic.wp_query_bind fun s₁ _ => ⟨trivial, fun replacement s₂ _ _ => ?_,
    fun _ _ _ _ _ _ _ => nofun⟩
  refine Logic.wp_query_bind fun s₃ _ => ⟨trivial, fun now s₄ _ _ => ?_,
    fun _ _ _ _ _ _ _ => nofun⟩
  refine wp_expires_at_bind (fun _ => ?_) fun _ _ _ _ => nofun
  refine Logic.wp_bind trivial wp_refresh_tx_vouched (fun outcome s₅ _ hvouched => ?_)
    fun _ _ _ _ => nofun
  cases outcome with
  | rotated user_id session_id =>
    have h := hvouched user_id session_id rfl
    refine Logic.wp_bind trivial (Logic.wp_grows (wp_trace _) fun _ he => he)
      (fun user s₆ _ hlog => ?_) fun _ _ _ _ => nofun
    refine wp_issue_bind IssuedSession.access_token (h.mono hlog.2)
      fun claims s₇ s₈ _ a heq => ?_
    cases heq
    rfl
  | reused user_id session_id =>
    exact Logic.wp_bind trivial (wp_trace _) (fun _ _ _ _ _ _ _ => nofun) fun _ _ _ _ => nofun
  | invalid => exact fun _ _ _ => nofun

/-- **Every access token is vouched for.** -/
theorem wp_vouched (r : Request) :
    (traceLogic d.platform G).wp p r (Request.code d r)
      (fun y s' => ∀ a, y = .ok a → ∀ claims ∈ r.issued a, Vouched p claims.sid s'.log) s := by
  cases r with
  | login email password client =>
    refine Logic.wp_mono (wp_login_vouched email password client) fun y s' _ h a ha claims heq => ?_
    cases heq
    exact h a ha
  | refresh refresh_token =>
    refine Logic.wp_mono (wp_refresh_vouched refresh_token) fun y s' _ h a ha claims heq => ?_
    cases heq
    exact h a ha
  | _ => exact Logic.wp_mono (wp_trace _) fun _ _ _ _ _ _ _ => nofun

end Endings

/-! ### Every run -/

/-- The session is of no use to anybody who comes later. -/
structure SignedOut (d : Deployment) (w : World) (session_id : Uuid) : Prop where
  /-- It is not live again. -/
  dead : ∀ {w₁} {claims : AccessClaims}, Reaches d anything w w₁ →
    w₁.shared.db.SessionLive claims → claims.sid ≠ session_id
  /-- Nobody is let in with its access token. -/
  refused : ∀ {w₁ w₂ p r claims} {a : r.Res}, Reaches d anything w w₁ → w₁.procs p = none →
    Reaches d anything w₁ w₂ → w₂.Returned p r a → r.claims = some claims →
    claims.sid ≠ session_id
  /-- Nor does anybody change anything with it. -/
  powerless : ∀ {w₁ w₂ w' p c proc claims}, Reaches d anything w w₁ → w₁.procs p = none →
    Reaches d anything w₁ w₂ → w₂.procs p = some proc → proc.req.claims = some claims →
    w₂.act (store d.platform) (Request.code d) (.step p c) = some w' →
    w'.shared.db ≠ w₂.shared.db → claims.sid ≠ session_id
  /-- Nobody is given an access token for it. -/
  not_renewed : ∀ {w₁ w₂ p r claims} {a : r.Res}, Reaches d anything w w₁ → w₁.procs p = none →
    Reaches d anything w₁ w₂ → w₂.Returned p r a → r.issued a = some claims →
    claims.sid ≠ session_id

section Run

variable {d : Deployment} {db : Database} {w₀ w w' : World} {p : ℕ} {row : SessionRecord}
  {session_id : Uuid} {φ : SessionRecord → Prop} {claims : AccessClaims} {selection : Selection}

theorem open_safe (db : Database) :
    (openLogic d.platform anything).Safe (fun _ _ _ _ => True) (World.start db) := .start trivial

/-- Every session there is has been committed by whoever generated it. -/
theorem openInv_of_reaches (hdb : ∀ row ∈ db.sessions.rows, row.id ∈ db.issued)
    (h : Reaches d anything (World.start db) w) : OpenInv db w.shared := by
  refine Logic.inv_of_reaches (fun _ r _ _ _ _ => wp_opens r) (open_safe db)
    ⟨Naming.fresh_nil ?_, fun row hrow => .inl ⟨row, hrow, rfl⟩⟩
    (fun _ hpre hs hx => hs.effect hpre hx) (fun _ hs => ⟨hs.fresh, hs.known⟩)
    (fun hs => ⟨hs.fresh, hs.known⟩) h
  rintro n ⟨row, hrow, rfl⟩
  exact hdb row hrow

/-- **What its changes preserve holds of a session for good.** -/
theorem Remains.of_reaches (hdb : ∀ row ∈ db.sessions.rows, row.id ∈ db.issued)
    (hφ : ∀ {row row'}, row.Becomes row' → φ row → φ row')
    (h : Reaches d anything (World.start db) w) (hleft : Remains db φ session_id w.shared)
    (h' : Reaches d anything w w') : Remains db φ session_id w'.shared := by
  have hspec : ∀ p (r : Request) s, anything.spawns r →
      (openLogic d.platform anything).inv s → (∀ e ∈ s.log, e.pid ≠ p) →
      (openLogic d.platform anything).wp p r (r.code d) (fun _ _ => True) s :=
    fun _ r _ _ _ _ => wp_opens r
  have hinv : OpenInv db w'.shared ∧ Remains db φ session_id w'.shared :=
    Logic.inv_of_reaches (I := fun s => OpenInv db s ∧ Remains db φ session_id s) hspec
      (Logic.safe_of_reaches hspec (open_safe db) h) ⟨openInv_of_reaches hdb h, hleft⟩
      (fun _ hpre hs hx => ⟨hs.1.effect hpre hx, hs.2.effect hφ hs.1 hpre hx⟩)
      (fun _ hs => ⟨⟨hs.1.fresh, hs.1.known⟩, hs.2.known, hs.2.left⟩)
      (fun hs => ⟨⟨hs.1.fresh, hs.1.known⟩, hs.2.known, hs.2.left⟩) h'
  exact hinv.2

/-- A session that has ended has ended for good. -/
theorem Ended.of_reaches (hdb : ∀ row ∈ db.sessions.rows, row.id ∈ db.issued)
    (h : Reaches d anything (World.start db) w) (hended : Ended db session_id w.shared)
    (h' : Reaches d anything w w') : Ended db session_id w'.shared :=
  Remains.of_reaches hdb (fun hbecomes => hbecomes.revoked_at) h hended h'

/-- What can be said of a session that is there can be said of it from then on. -/
theorem remains_of_mem (hdb : ∀ row ∈ db.sessions.rows, row.id ∈ db.issued)
    (hφ : ∀ {row row'}, row.Becomes row' → φ row → φ row')
    (h : Reaches d anything (World.start db) w) (hrow : row ∈ w.shared.db.sessions.rows)
    (hholds : φ row) (h' : Reaches d anything w w') : Remains db φ row.id w'.shared := by
  refine Remains.of_reaches hdb hφ h ⟨(openInv_of_reaches hdb h).known row hrow, ?_⟩ h'
  intro row' hrow' hid
  rwa [w.shared.db.sessions.eq_of_key_eq hrow' hrow hid]

/-- **What is revoked has ended.** -/
theorem ended_of_revokes (hdb : ∀ row ∈ db.sessions.rows, row.id ∈ db.issued)
    (h₀ : Reaches d anything (World.start db) w₀) (hrow : row ∈ w₀.shared.db.sessions.rows)
    (hnew : w₀.procs p = none) (h : Reaches d anything w₀ w)
    (hrevokes : Revokes p w.shared.log selection) (hcovers : selection.Covers row) :
    Ended db row.id w.shared := by
  have hknown : ∀ {w₁}, Reaches d anything w₀ w₁ → KnownSession db row.id w₁.shared.log :=
    fun hto => (remains_of_mem (φ := fun _ => True) hdb (fun _ h => h) h₀ hrow trivial hto).known
  have hlast : ∀ {w₁}, Reaches d anything w₀ w₁ → Reaches d anything w₁ w →
      (∀ row' ∈ w₁.shared.db.sessions.rows, row'.id = row.id → row'.revoked_at ≠ none) →
      Ended db row.id w.shared := fun hto hfrom hrevoked =>
    Ended.of_reaches hdb (h₀.trans hto) ⟨hknown hto, hrevoked⟩ hfrom
  cases selection with
  | session id =>
    obtain ⟨r, before, hmem⟩ := hrevokes
    obtain ⟨w₁, w₂, hto, -, hmid, hx, hfrom⟩ :=
      h.visits_effect (mem_since_of_new h₀ h hnew hmem)
    exact hlast (hto.trans hmid) hfrom fun row' hrow' hid =>
      revoked_of_revoke hx hrow' (hid.trans hcovers)
  | account user_id keep =>
    obtain ⟨huser, hkeep⟩ := hcovers
    obtain ⟨r, before, now, ids, r', before', n, hfound, hrevoked⟩ := hrevokes
    obtain ⟨w₁, hto, hbefore, hfrom⟩ := h.visits_of_mem (mem_since_of_new h₀ h hnew hfound)
    obtain ⟨c, db', hrun⟩ := (h₀.trans h).answered _ hfound _ rfl
    have hids : _ = ids :=
      congrArg Prod.snd (Except.ok.inj (congrArg Prod.snd (Option.some.inj hrun)))
    have huser₁ := remains_of_mem (φ := fun row => row.user_id = user_id) hdb
      (fun hbecomes h => hbecomes.user_id.trans h) h₀ hrow huser hto
    by_cases hlisted : row.id ∈ ids
    · -- it was found, and is revoked by the update
      obtain ⟨w₂, w₃, hto₂, -, hmid, hx, hfrom₃⟩ :=
        h.visits_effect (mem_since_of_new h₀ h hnew hrevoked)
      exact hlast (hto₂.trans hmid) hfrom₃ fun row' hrow' hid =>
        revoked_of_revoke_rows hx hrow' (hid ▸ hlisted)
    · -- it was not found, since it had ended before
      refine hlast hto hfrom fun row' hrow' hid hlive => hlisted ?_
      rw [← hids, ← hid]
      refine List.mem_map_of_mem (List.mem_filter.mpr ⟨hbefore ▸ hrow', ?_⟩)
      rw [huser₁.left row' hrow' hid, hid, hlive]
      simpa using hkeep

/-- A session that has ended is not live. -/
theorem Ended.dead (h : Ended db session_id w.shared) (hlive : w.shared.db.SessionLive claims) :
    claims.sid ≠ session_id := by
  obtain ⟨row, hrow, hid, -, hrevoked, -⟩ := hlive
  rintro rfl
  exact h.left row hrow hid hrevoked

/-- Nobody who comes later vouches for a session that has ended. -/
theorem not_vouched (hdb : ∀ row ∈ db.sessions.rows, row.id ∈ db.issued)
    (h₀ : Reaches d anything (World.start db) w₀) (hended : Ended db session_id w₀.shared)
    (hnew : w₀.procs p = none) (h : Reaches d anything w₀ w) :
    ¬ Vouched p session_id w.shared.log := by
  have hlater : ∀ {w₁}, Reaches d anything w₀ w₁ → Ended db session_id w₁.shared := fun hto =>
    Ended.of_reaches hdb h₀ hended hto
  rintro (@⟨r, before, user_id, user_agent, ip, expires_at, now, row, hmem, hid⟩ |
    ⟨hmem, hid, hlive⟩)
  · obtain ⟨w₁, w₂, hto, -, -, hx, -⟩ := h.visits_effect (mem_since_of_new h₀ h hnew hmem)
    obtain ⟨-, c, db', hrun, -⟩ := hx.of_ok
    have hgiven : (Stmt.sessions (.insert_session user_id user_agent ip expires_at now)).run
      d.platform p c w₁.shared.db = some (db', .ok row) := hrun
    exact (new_of_givesId (r := r) hgiven ⟨rfl, hid.symm⟩).1
      ((openInv_of_reaches hdb (h₀.trans hto)).fresh.used _ (hlater hto).known)
  · obtain ⟨w₁, hto, hbefore, -⟩ := h.visits_of_mem (mem_since_of_new h₀ h hnew hmem)
    obtain ⟨c, db', hrun⟩ := (h₀.trans h).answered _ hmem _ rfl
    simp only [store, Stmt.run, SessionStmt.run] at hrun
    split at hrun
    · cases hrun
    split at hrun
    · cases hrun
    next row hrow =>
    split at hrun <;> cases hrun
    exact (hlater hto).left row (hbefore ▸ (Table.find?_eq_some.mp hrow).1) hid hlive

/-- **A session that has ended is of no use to anybody who comes later.** -/
theorem signedOut_of_ended (hdb : ∀ row ∈ db.sessions.rows, row.id ∈ db.issued)
    (h : Reaches d anything (World.start db) w) (hended : Ended db session_id w.shared) :
    SignedOut d w session_id := by
  have hlater : ∀ {w₁}, Reaches d anything w w₁ → Ended db session_id w₁.shared := fun hto =>
    Ended.of_reaches hdb h hended hto
  have hadmitted : ∀ {w₁ w₂ p claims}, Reaches d anything w w₁ → w₁.procs p = none →
      Reaches d anything w₁ w₂ → Admitted d.platform p claims w₂.shared.log →
        claims.sid ≠ session_id := by
    intro w₁ w₂ p claims h₁ hnew h₂ hadmitted
    obtain ⟨w₃, hto, -, hlive⟩ := moment_live (h.trans h₁) hnew h₂ hadmitted
    exact Ended.dead (hlater (h₁.trans hto)) hlive
  refine ⟨fun h₁ => Ended.dead (hlater h₁), fun h₁ hnew h₂ hreturned hclaims => ?_,
    fun h₁ hnew h₂ hproc hclaims hact hchanged => ?_, fun h₁ hnew h₂ hreturned hissued => ?_⟩
  · exact hadmitted h₁ hnew h₂
      (admitted_of_returned (h.trans (h₁.trans h₂)) hreturned hclaims)
  · exact hadmitted h₁ hnew h₂
      (admitted_of_change (h.trans (h₁.trans h₂)) hproc hclaims hact hchanged).1
  · have hvouched := (Logic.safe_of_reaches (fun _ r _ _ _ _ => wp_vouched r)
      (.start trivial) (h.trans (h₁.trans h₂))).of_returned hreturned _ rfl _ hissued
    rintro rfl
    exact not_vouched hdb (h.trans h₁) (hlater h₁) hnew h₂ hvouched

/-- **What is signed out stays signed out.** When a request that signs sessions out ends well, every
session of them that was there when the request arrived is of no use to anybody who comes later:
whatever happens, it is not live again, nobody is let in or changes anything with its access token,
and nobody is answered with another one. -/
theorem signed_out (hdb : ∀ row ∈ db.sessions.rows, row.id ∈ db.issued)
    (h₀ : Reaches d anything (World.start db) w₀) (hrow : row ∈ w₀.shared.db.sessions.rows)
    (hnew : w₀.procs p = none) (h : Reaches d anything w₀ w) {r : Request} {a : r.Res}
    (hreturned : w.Returned p r a) (hsigns : r.signs_out = some selection)
    (hcovers : selection.Covers row) : SignedOut d w row.id := by
  have hrevokes := (Logic.safe_of_reaches (fun _ r _ _ _ _ => wp_signs_out r) (.start trivial)
    (h₀.trans h)).of_returned hreturned a rfl selection hsigns
  exact signedOut_of_ended hdb (h₀.trans h) (ended_of_revokes hdb h₀ hrow hnew h hrevokes hcovers)

/-- Account 8 is signed out of everything. -/
def signsOutAda : List Step := [.spawn 1 (.logout_all 8), .step 1 {}, .step 1 {}]

/-- Its session is of no use to anybody any more. -/
theorem signed_out_signsOutAda :
    SignedOut .sample (Deployment.sample.play anything signsOutAda .sample) 18 := by
  have hreturned : (Deployment.sample.play anything signsOutAda .sample).Returned 1
    (.logout_all 8) () := by rfl
  have hrow : SessionRecord.sample 18 8 ∈
      (World.start .sample : World).shared.db.sessions.rows := by
    decide
  exact signed_out (by decide) .refl hrow rfl
    (Deployment.sample.reaches_play anything signsOutAda _) hreturned rfl ⟨rfl, nofun⟩

end Run

end SubmitSnap
