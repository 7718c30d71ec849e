import SubmitSnap.Footprints
import SubmitSnap.Interleave.Fresh

/-!
# Sessions and the rotation of their tokens

A session has one refresh token at a time. A refresh locks the row of the token it was shown and the
row of its session, inserts a new token, and marks the old one as used and replaced by the new one,
all in one transaction; a revocation has to wait for it. The tokens of a session therefore form one
chain, of which the last one is unused.

## The argument

A token is exchanged by a commit that marks the old one, inserts the new one and marks the session
as used, and the invariant to keep is that the tokens of a session form one chain. If the old one
is the last of the chain, the commit makes the chain longer by one; if it were not, there would be
a fork. That it is the last is known because it is unused, and that it is still unused when the
commit comes is known because its row has been locked since it was read. The same lock on the
session keeps a revocation away until the exchange is over.

`SessionMove` is the inventory: of everything that is not a commit it says that it leaves both
tables alone or revokes some sessions whose rows were free. All the invariants below are read off
it, one case each; no other proof looks at a statement.

Identifiers and hashes come out of one generator here, and `sessionNames` treats them as one kind
of name. A row that is inserted has an identifier and a hash that were held by the process that
inserts it. So no insert replaces a row that is there, no two tokens have one hash, and a token
that somebody presents is one that was handed out.

## Main definitions

* `IsChain` — the tokens of a session, in the order they replaced each other.
* `SessionMove` — what one statement does to the two tables.
* `sessionLogic` — what holds of sessions in every run, and what a request may rely on.

## Main results

* `sessionInv_of_effect`, `sessionRely_of_effect` — every statement keeps the one, and grants the
  other.
-/

namespace SubmitSnap

open Interleave

/-! ### Chains

A chain of tokens is a list in which each token names the next as its replacement. The rows of the
table are in no order, so a session's tokens are a permutation of a chain. -/

/-- Each token was exchanged for the next one, and the last has not been used. -/
def IsChain : List SessionToken → Prop
  | [] => False
  | [t] => t.used_at = none ∧ t.replaced_by = none
  | t :: t' :: ts => t.used_at ≠ none ∧ t.replaced_by = some t'.id ∧ IsChain (t' :: ts)

/-- `UPDATE session_tokens SET used_at, replaced_by WHERE id`. -/
def SessionToken.use (id : Uuid) (now : Timestamp) (replaced_by : Uuid) (t : SessionToken) :
    SessionToken :=
  if t.id == id then { t with used_at := some now, replaced_by := some replaced_by } else t

section Chains

variable {t t' : SessionToken} {ts : List SessionToken} {id rid : Uuid} {now : Timestamp}

@[simp] theorem SessionToken.use_id : (t.use id now rid).id = t.id := by
  unfold use
  split <;> rfl

@[simp] theorem SessionToken.use_session_id : (t.use id now rid).session_id = t.session_id := by
  unfold use
  split <;> rfl

@[simp] theorem SessionToken.use_token_hash : (t.use id now rid).token_hash = t.token_hash := by
  unfold use
  split <;> rfl

@[simp] theorem SessionToken.use_expires_at : (t.use id now rid).expires_at = t.expires_at := by
  unfold use
  split <;> rfl

theorem SessionToken.use_of_ne (h : t.id ≠ id) : t.use id now rid = t := by
  simp [use, h]

theorem SessionToken.use_self :
    t.use t.id now rid = { t with used_at := some now, replaced_by := some rid } := by
  simp [use]

theorem SessionToken.used_use (h : t.used_at ≠ none) : (t.use id now rid).used_at ≠ none := by
  unfold use
  split
  · exact nofun
  · exact h

/-- One token of a chain is unused. -/
theorem IsChain.exists_unique (h : IsChain ts) :
    ∃ t ∈ ts, t.used_at = none ∧ ∀ t' ∈ ts, t'.used_at = none → t' = t := by
  induction ts with
  | nil => exact h.elim
  | cons t ts ih =>
    cases ts with
    | nil => exact ⟨t, List.mem_singleton.mpr rfl, h.1, fun t' ht' _ => List.mem_singleton.mp ht'⟩
    | cons t₁ ts =>
      obtain ⟨t₀, ht₀, hunused, hunique⟩ := ih h.2.2
      refine ⟨t₀, List.mem_cons_of_mem _ ht₀, hunused, fun t' ht' hunused' => ?_⟩
      rcases List.mem_cons.mp ht' with rfl | ht'
      · exact absurd hunused' h.1
      · exact hunique t' ht' hunused'

/-- What replaces a token of a chain is in it. -/
theorem IsChain.exists_replacement (h : IsChain ts) (ht : t ∈ ts) (hid : t.replaced_by = some id) :
    ∃ t' ∈ ts, t'.id = id := by
  induction ts with
  | nil => exact h.elim
  | cons t₀ ts ih =>
    cases ts with
    | nil =>
      obtain rfl := List.mem_singleton.mp ht
      rw [h.2] at hid
      cases hid
    | cons t₁ ts =>
      rcases List.mem_cons.mp ht with rfl | ht
      · rw [h.2.1] at hid
        exact ⟨t₁, by simp, Option.some.inj hid⟩
      · obtain ⟨t', ht', heq⟩ := ih h.2.2 ht
        exact ⟨t', List.mem_cons_of_mem _ ht', heq⟩

/-- **A rotation makes a chain longer**: the unused token is marked, and a new one added. -/
theorem IsChain.rotate (h : IsChain ts) (ht : t ∈ ts) (hunused : t.used_at = none)
    (hunique : ∀ t₁ ∈ ts, t₁.id = t.id → t₁ = t) (hnew : t'.used_at = none)
    (hlast : t'.replaced_by = none) : IsChain (ts.map (·.use t.id now t'.id) ++ [t']) := by
  induction ts with
  | nil => exact h.elim
  | cons t₀ ts ih =>
    cases ts with
    | nil =>
      obtain rfl := List.mem_singleton.mp ht
      rw [List.map_singleton, SessionToken.use_self]
      exact ⟨nofun, rfl, hnew, hlast⟩
    | cons t₁ ts =>
      have hne : t₀ ≠ t := by
        rintro rfl
        exact h.1 hunused
      have hid : t₀.id ≠ t.id := fun heq => hne (hunique t₀ List.mem_cons_self heq)
      have hrest := ih h.2.2 ((List.mem_cons.mp ht).resolve_left (Ne.symm hne))
        fun t₂ ht₂ => hunique t₂ (List.mem_cons_of_mem _ ht₂)
      rw [List.map_cons, SessionToken.use_of_ne hid]
      refine ⟨h.1, ?_, hrest⟩
      rw [h.2.1, SessionToken.use_id]

end Chains

/-- The tokens of a session. -/
def Database.tokens_of (db : Database) (session_id : Uuid) : List SessionToken :=
  db.session_tokens.rows.filter (·.session_id == session_id)

theorem Database.mem_tokens_of {db : Database} {session_id : Uuid} {t : SessionToken} :
    t ∈ db.tokens_of session_id ↔ t ∈ db.session_tokens.rows ∧ t.session_id = session_id := by
  simp [tokens_of]

/-- `row'` is `row`, used once more or revoked. -/
structure SessionRecord.Becomes (row row' : SessionRecord) : Prop where
  id : row'.id = row.id
  user_id : row'.user_id = row.user_id
  expires_at : row'.expires_at = row.expires_at
  revoked_at : row.revoked_at ≠ none → row'.revoked_at ≠ none

namespace SessionRecord

variable {row row' row'' : SessionRecord}

theorem Becomes.refl (row : SessionRecord) : row.Becomes row := ⟨rfl, rfl, rfl, fun h => h⟩

theorem Becomes.trans (h : row.Becomes row') (h' : row'.Becomes row'') : row.Becomes row'' where
  id := h'.id.trans h.id
  user_id := h'.user_id.trans h.user_id
  expires_at := h'.expires_at.trans h.expires_at
  revoked_at := fun hrevoked => h'.revoked_at (h.revoked_at hrevoked)

end SessionRecord

/-- The session is there, and revoked. -/
def Database.Revoked (db : Database) (session_id : Uuid) : Prop :=
  ∃ row ∈ db.sessions.rows, row.id = session_id ∧ row.revoked_at ≠ none

/-! ### What has happened -/

/-- The session a write marks as used. -/
def Write.touched : Write → Option Uuid
  | touch_session id _ => some id
  | _ => none

/-- The identifiers of the rows a write inserts, and the token a hash is of. -/
def Write.sessionNames : Write → List ℕ
  | session row => [row.id]
  | session_token t => [t.id, t.token_hash.of.id]
  | _ => []

/-- The token a write inserts. -/
def Write.token : Write → Option SessionToken
  | session_token t => some t
  | _ => none

/-- A commit. -/
def Commits : Event → Prop
  | ⟨_, _, _, .commit _, .ok ()⟩ => True
  | _ => False

/-- A refresh that was shown this token is committed. -/
def Redeems (token : SecretToken) : Event → Prop
  | ⟨_, .refresh token', _, .commit _, .ok ()⟩ => token' = token
  | _ => False

/-- A token of this session is exchanged. -/
def RotatesSession (session_id : Uuid) : Event → Prop
  | ⟨_, _, _, .commit ws, .ok ()⟩ => session_id ∈ ws.filterMap Write.touched
  | _ => False

/-- A used token of this session is shown. -/
def ShowsUsed (session_id : Uuid) : Event → Prop
  | ⟨_, _, _, .sessions (.lookup _), .ok (some lookup)⟩ =>
    lookup.session_id = session_id ∧ lookup.used_at ≠ none
  | _ => False

/-- A look at the clock. -/
def LooksAtClock : Event → Prop
  | ⟨_, _, _, .now, _⟩ => True
  | _ => False

/-- A statement that failed. -/
def Fails (e : Event) : Prop := ∃ x, e.reply = .error x

/-- An identifier is given by the insert that generates it, and a hash with its token; both are used
by the commit. -/
def sessionNames : Naming Event ℕ where
  gives p n
    | ⟨p', _, _, .generate, .ok n'⟩ => p' = p ∧ n = n'
    | ⟨p', _, _, .sessions (.insert_session _ _ _ _ _), .ok row⟩ => p' = p ∧ n = row.id
    | ⟨p', _, _, .sessions (.insert_token _ _ _ _), .ok t⟩ => p' = p ∧ n = t.id
    | ⟨p', _, _, .sessions (.insert_replacement _ _ _ _), .ok t⟩ => p' = p ∧ n = t.id
    | _ => False
  uses p n
    | ⟨p', _, _, .commit ws, .ok ()⟩ => p' = p ∧ n ∈ ws.flatMap Write.sessionNames
    | _ => False

/-- A name that was there before the trace began. -/
def oldSessionName (db₀ : Database) (n : ℕ) : Prop :=
  (∃ row ∈ db₀.sessions.rows, row.id = n) ∨
    ∃ t ∈ db₀.session_tokens.rows, t.id = n ∨ t.token_hash.of.id = n

/-! ### Preconditions -/

/-- `p` has locked a token and its session, and these are their rows. As long as the locks are
held nobody else can change either row, so this survives whatever the others do. -/
structure Presented (p : ℕ) (t : SessionToken) (sess : SessionRecord) (db : Database) : Prop where
  mem_token : t ∈ db.session_tokens.rows
  mem_session : sess ∈ db.sessions.rows
  belongs : t.session_id = sess.id
  holds_token : db.locks.Holds p (.session_token t.id) .update
  holds_session : db.locks.Holds p (.session sess.id) .update

/-- What is known when a session is committed with its first token. -/
structure Creates (p : ℕ) (r : Request) (s : State) (row : SessionRecord) (t : SessionToken) :
    Prop where
  request : ∀ token, r ≠ .refresh token
  held_session : sessionNames.Held p row.id s.log
  held_token : sessionNames.Held p t.id s.log
  held_hash : sessionNames.Held p t.token_hash.of.id s.log
  belongs : t.session_id = row.id
  unused : t.used_at = none
  unreplaced : t.replaced_by = none

/-- `p` serves a refresh and has found that the token it was shown can be exchanged. -/
structure Exchangeable (p : ℕ) (r : Request) (s : State) (token : SecretToken) (t : SessionToken)
    (sess : SessionRecord) : Prop extends Presented p t sess s.db where
  request : r = .refresh token
  shown : t.token_hash = hash_secret_token token
  live : t.used_at = none
  active : sess.revoked_at = none
  /-- The session had not expired when `p` looked at the clock. It may have by the time of the
  commit. -/
  timely : ∀ e ∈ s.log, e.pid = p → LooksAtClock e → e.before.clock < sess.expires_at

/-- What is known when a token is exchanged. -/
structure Exchanges (p : ℕ) (r : Request) (s : State) (token : SecretToken) (t : SessionToken)
    (sess : SessionRecord) (t' : SessionToken) : Prop extends Exchangeable p r s token t sess where
  held_token : sessionNames.Held p t'.id s.log
  held_hash : sessionNames.Held p t'.token_hash.of.id s.log
  same_session : t'.session_id = sess.id
  unused : t'.used_at = none
  unreplaced : t'.replaced_by = none
  within : t'.expires_at ≤ sess.expires_at

/-- The commits that are made. -/
inductive SessionCommit (p : ℕ) (r : Request) (s : State) : List Write → Prop where
  | create {row : SessionRecord} {t : SessionToken} (h : Creates p r s row t) :
      SessionCommit p r s [.session row, .session_token t]
  | rotate {token : SecretToken} {t t' : SessionToken} {sess : SessionRecord} {now : Timestamp}
      (h : Exchanges p r s token t sess t') : SessionCommit p r s
      [.session_token t', .use_token t.id now t'.id, .touch_session sess.id now]

/-- What has to hold when a statement is executed. -/
def SessionPre (p : ℕ) (r : Request) (s : State) : Stmt → Prop
  | .commit ws => SessionCommit p r s ws
  | .users (.delete_apply _) => False
  | _ => True

/-! ### What a statement does to the two tables -/

/-- What one statement of `p` does to the sessions and their tokens. -/
inductive SessionMove (p : ℕ) (r : Request) (s : State) (db' : Database) :
    (q : Stmt) → Except Failure q.Reply → Prop where
  | idle {q : Stmt} {x : Except Failure q.Reply} (hquiet : ¬ Commits ⟨p, r, s.db, q, x⟩)
      (h : SameSessions s.db db') : SessionMove p r s db' q x
  | revoke {q : Stmt} {x : Except Failure q.Reply} {sel : SessionRecord → Bool} {now : Timestamp}
      (hquiet : ¬ Commits ⟨p, r, s.db, q, x⟩)
      (hfree : ∀ row ∈ s.db.sessions.rows, sel row = true →
        s.db.free p (.session row.id) .noKeyUpdate = true)
      (hsessions : db'.sessions.rows = s.db.sessions.rows.map fun row =>
        if sel row && row.revoked_at.isNone then { row with revoked_at := some now } else row)
      (htokens : db'.session_tokens = s.db.session_tokens) : SessionMove p r s db' q x
  | create {row : SessionRecord} {t : SessionToken} (h : Creates p r s row t)
      (hsessions : db'.sessions = s.db.sessions.insertNew row)
      (htokens : db'.session_tokens = s.db.session_tokens.insertNew t) :
      SessionMove p r s db' (.commit [.session row, .session_token t]) (.ok ())
  | rotate {token : SecretToken} {t t' : SessionToken} {sess : SessionRecord} {now : Timestamp}
      (h : Exchanges p r s token t sess t')
      (hsessions : db'.sessions.rows = s.db.sessions.rows.map fun row =>
        if row.id == sess.id then { row with last_used_at := now } else row)
      (htokens : db'.session_tokens.rows =
        (s.db.session_tokens.insertNew t').rows.map (·.use t.id now t'.id)) :
      SessionMove p r s db' (.commit
        [.session_token t', .use_token t.id now t'.id, .touch_session sess.id now]) (.ok ())

section Moves

variable {P : Platform} {G : Regime} {p : ℕ} {r : Request} {q : Stmt} {x : Except Failure q.Reply}
  {s s' : State}

theorem not_commits_of_ne (hq : ∀ ws, q ≠ .commit ws) : ¬ Commits ⟨p, r, s.db, q, x⟩ := by
  intro h
  unfold Commits at h
  split at h
  · next heq =>
    cases heq
    exact hq _ rfl
  · exact h

/-- A statement on sessions that is no commit may only revoke some. -/
theorem SessionStmt.sessionMove {c : Choice} {q : SessionStmt} {x : Except Failure q.Reply}
    {db : Database} (h : q.run p c s.db = some (db, x)) : SessionMove p r s db (.sessions q) x := by
  have hquiet : ¬ Commits ⟨p, r, s.db, .sessions q, x⟩ := not_commits_of_ne fun _ => nofun
  cases q with
  | revoke session_id =>
    simp only [SessionStmt.run] at h
    split at h
    · next hfree =>
      cases h
      refine .revoke hquiet (fun row _ hrow => ?_) rfl rfl
      rw [beq_iff_eq.mp hrow]
      exact hfree
    · cases h
  | revoke_rows ids now =>
    simp only [SessionStmt.run] at h
    split at h
    · next hfree =>
      cases h
      refine .revoke hquiet (fun row _ hrow => ?_) rfl rfl
      exact List.all_eq_true.mp hfree row.id (of_decide_eq_true hrow)
    · cases h
  | insert_session _ _ _ _ _ | insert_token _ _ _ _ | lookup _ | insert_replacement _ _ _ _
  | lock_token _ | lock_session _ | is_active _ _ | active_of _ _ =>
    simp only [SessionStmt.run] at h
    (repeat' split at h) <;> cases h <;> exact .idle hquiet ⟨rfl, rfl⟩

/-- **What a statement does to sessions.** -/
theorem sessionMove_of_effect (hpre : SessionPre p r s q) (h : G.Effect (store P) p r q s x s') :
    SessionMove p r s s'.db q x := by
  cases h with
  | fail _ =>
    refine .idle (fun hcommits => ?_) ⟨rfl, rfl⟩
    unfold Commits at hcommits
    split at hcommits
    · next heq => cases heq
    · exact hcommits
  | @run c db' x _ hrun =>
    by_cases hq : ∃ ws, q = .commit ws
    · obtain ⟨ws, rfl⟩ := hq
      cases hrun
      cases hpre with
      | create h => exact .create h rfl rfl
      | rotate h => exact .rotate h rfl rfl
    · have hquiet : ∀ {x}, ¬ Commits ⟨p, r, s.db, q, x⟩ :=
        not_commits_of_ne fun ws hws => hq ⟨ws, hws⟩
      have hidle : Part.sessions.reachedBy q = false → Part.session_tokens.reachedBy q = false →
          SessionMove p r s db' q x := by
        have h : q.run P p c s.db = some (db', x) := hrun
        exact fun hsessions htokens => .idle hquiet
          ⟨Stmt.footprint .sessions hsessions h, Stmt.footprint .session_tokens htokens h⟩
      cases q with
      | commit ws => exact absurd ⟨ws, rfl⟩ hq
      | sessions q => exact SessionStmt.sessionMove hrun
      | users q =>
        cases q with
        | delete_apply u => exact hpre.elim
        | _ => exact hidle rfl rfl
      | _ => exact hidle rfl rfl

/-- Sessions stay, with their expiry, and revoked ones stay revoked. -/
theorem SessionMove.sessions_kept {db' : Database} (h : SessionMove p r s db' q x) :
    ∀ row ∈ s.db.sessions.rows, ∃ row' ∈ db'.sessions.rows, row.Becomes row' := by
  intro row hrow
  cases h with
  | idle _ h => exact ⟨row, h.sessions ▸ hrow, .refl row⟩
  | revoke _ _ hsessions _ =>
    rw [hsessions]
    refine ⟨_, List.mem_map_of_mem hrow, ?_⟩
    split
    · exact ⟨rfl, rfl, rfl, fun _ => nofun⟩
    · exact .refl row
  | create _ hsessions _ =>
    rw [hsessions]
    exact ⟨row, Table.mem_insertNew_of_mem hrow, .refl row⟩
  | rotate _ hsessions _ =>
    rw [hsessions]
    refine ⟨_, List.mem_map_of_mem hrow, ?_⟩
    split
    · exact ⟨rfl, rfl, rfl, fun h => h⟩
    · exact .refl row

/-- Where a session comes from. -/
theorem SessionMove.session_origin {db' : Database} (h : SessionMove p r s db' q x)
    {row' : SessionRecord} (hrow' : row' ∈ db'.sessions.rows) :
    (∃ row ∈ s.db.sessions.rows, row.Becomes row') ∨
      ∃ t, Creates p r s row' t ∧
        (⟨p, r, s.db, q, x⟩ : Event) =
          ⟨p, r, s.db, .commit [.session row', .session_token t], .ok ()⟩ := by
  cases h with
  | idle _ h => exact .inl ⟨row', h.sessions ▸ hrow', .refl row'⟩
  | revoke _ _ hsessions _ =>
    rw [hsessions] at hrow'
    obtain ⟨row, hrow, rfl⟩ := List.mem_map.mp hrow'
    refine .inl ⟨row, hrow, ?_⟩
    split
    · exact ⟨rfl, rfl, rfl, fun _ => nofun⟩
    · exact .refl row
  | create h hsessions _ =>
    rw [hsessions] at hrow'
    rcases Table.mem_insertNew.mp hrow' with hrow | ⟨rfl, -⟩
    · exact .inl ⟨row', hrow, .refl row'⟩
    · exact .inr ⟨_, h, rfl⟩
  | rotate _ hsessions _ =>
    rw [hsessions] at hrow'
    obtain ⟨row, hrow, rfl⟩ := List.mem_map.mp hrow'
    refine .inl ⟨row, hrow, ?_⟩
    split
    · exact ⟨rfl, rfl, rfl, fun h => h⟩
    · exact .refl row

/-- `t'` is `t`, exchanged or not. -/
structure SessionToken.Becomes (t t' : SessionToken) : Prop where
  id : t'.id = t.id
  session_id : t'.session_id = t.session_id
  token_hash : t'.token_hash = t.token_hash
  expires_at : t'.expires_at = t.expires_at
  used_at : t.used_at ≠ none → t'.used_at ≠ none

theorem SessionToken.Becomes.refl (t : SessionToken) : t.Becomes t :=
  ⟨rfl, rfl, rfl, rfl, fun h => h⟩

theorem SessionToken.becomes_use {t : SessionToken} {id rid : Uuid} {now : Timestamp} :
    t.Becomes (t.use id now rid) :=
  ⟨use_id, use_session_id, use_token_hash, use_expires_at, used_use⟩

/-- The event inserts the token, under an identifier and a hash that were `p`'s. -/
structure Inserts (p : ℕ) (r : Request) (s : State) (e : Event) (t : SessionToken) : Prop where
  held : ∀ n ∈ [t.id, t.token_hash.of.id], sessionNames.Held p n s.log
  commits : ∃ ws, e = ⟨p, r, s.db, .commit ws, .ok ()⟩ ∧ ws.filterMap Write.token = [t]
  unused : t.used_at = none
  unreplaced : t.replaced_by = none

theorem Inserts.uses {e : Event} {t : SessionToken} (h : Inserts p r s e t) :
    ∀ n ∈ [t.id, t.token_hash.of.id], sessionNames.uses p n e := by
  intro n hn
  obtain ⟨ws, rfl, htoken⟩ := h.commits
  obtain ⟨w, hw, heq⟩ := List.mem_filterMap.mp (htoken ▸ List.mem_singleton.mpr rfl)
  refine ⟨rfl, List.mem_flatMap.mpr ⟨w, hw, ?_⟩⟩
  cases w <;> cases heq
  exact hn

/-- A commit inserts one token. -/
theorem Inserts.eq {e : Event} {t t' : SessionToken} (h : Inserts p r s e t)
    (h' : Inserts p r s e t') : t = t' := by
  obtain ⟨ws, rfl, htoken⟩ := h.commits
  obtain ⟨ws', heq, htoken'⟩ := h'.commits
  cases heq
  exact List.singleton_inj.mp (htoken.symm.trans htoken')

theorem held_of_pair {t : SessionToken} {log : List Event}
    (hid : sessionNames.Held p t.id log) (hhash : sessionNames.Held p t.token_hash.of.id log) :
    ∀ n ∈ [t.id, t.token_hash.of.id], sessionNames.Held p n log := by
  intro n hn
  rcases List.mem_cons.mp hn with rfl | hn
  · exact hid
  · rw [List.mem_singleton.mp hn]
    exact hhash

theorem Creates.inserts {row : SessionRecord} {t : SessionToken} (h : Creates p r s row t) :
    Inserts p r s ⟨p, r, s.db, .commit [.session row, .session_token t], .ok ()⟩ t where
  held := held_of_pair h.held_token h.held_hash
  commits := ⟨_, rfl, rfl⟩
  unused := h.unused
  unreplaced := h.unreplaced

theorem Exchanges.inserts {token : SecretToken} {t t' : SessionToken} {sess : SessionRecord}
    {now : Timestamp} (h : Exchanges p r s token t sess t') : Inserts p r s ⟨p, r, s.db, .commit
      [.session_token t', .use_token t.id now t'.id, .touch_session sess.id now], .ok ()⟩ t' where
  held := held_of_pair h.held_token h.held_hash
  commits := ⟨_, rfl, rfl⟩
  unused := h.unused
  unreplaced := h.unreplaced

/-- The rows of the tokens after an exchange are the old ones, and the new one. -/
theorem Exchanges.rows {token : SecretToken} {t t' : SessionToken} {sess : SessionRecord}
    (h : Exchanges p r s token t sess t') (hkey : s.db.session_tokens.hasKey t'.id = false)
    (now : Timestamp) : (s.db.session_tokens.insertNew t').rows.map (·.use t.id now t'.id) =
      s.db.session_tokens.rows.map (·.use t.id now t'.id) ++ [t'] := by
  have hne : t'.id ≠ t.id := fun heq =>
    Table.hasKey_eq_false.mp hkey t h.mem_token heq.symm
  rw [Table.rows_insertNew_of_not hkey, List.map_append, List.map_singleton,
    SessionToken.use_of_ne hne]

/-- Tokens stay, and used ones stay used. -/
theorem SessionMove.tokens_kept {db' : Database} (h : SessionMove p r s db' q x) :
    ∀ t ∈ s.db.session_tokens.rows, ∃ t' ∈ db'.session_tokens.rows, t.Becomes t' := by
  intro t ht
  cases h with
  | idle _ h => exact ⟨t, h.session_tokens ▸ ht, .refl t⟩
  | revoke _ _ _ htokens => exact ⟨t, htokens ▸ ht, .refl t⟩
  | create _ _ htokens => exact ⟨t, htokens ▸ Table.mem_insertNew_of_mem ht, .refl t⟩
  | rotate _ _ htokens =>
    rw [htokens]
    exact ⟨_, List.mem_map_of_mem (Table.mem_insertNew_of_mem ht), SessionToken.becomes_use⟩

/-- Where a token comes from. -/
theorem SessionMove.token_origin {db' : Database} (h : SessionMove p r s db' q x)
    {t' : SessionToken} (ht' : t' ∈ db'.session_tokens.rows) :
    (∃ t ∈ s.db.session_tokens.rows, t.Becomes t') ∨ Inserts p r s ⟨p, r, s.db, q, x⟩ t' := by
  cases h with
  | idle _ h => exact .inl ⟨t', h.session_tokens ▸ ht', .refl t'⟩
  | revoke _ _ _ htokens => exact .inl ⟨t', htokens ▸ ht', .refl t'⟩
  | create h _ htokens =>
    rw [htokens] at ht'
    rcases Table.mem_insertNew.mp ht' with ht | ⟨rfl, -⟩
    · exact .inl ⟨t', ht, .refl t'⟩
    · exact .inr h.inserts
  | @rotate token t₀ t₁ sess now h _ htokens =>
    cases hkey : s.db.session_tokens.hasKey t₁.id with
    | true =>
      rw [htokens, Table.insertNew_of_hasKey hkey] at ht'
      obtain ⟨t, ht, rfl⟩ := List.mem_map.mp ht'
      exact .inl ⟨t, ht, SessionToken.becomes_use⟩
    | false =>
      rw [htokens, h.rows hkey] at ht'
      rcases List.mem_append.mp ht' with ht | ht
      · obtain ⟨t, hold, rfl⟩ := List.mem_map.mp ht
        exact .inl ⟨t, hold, SessionToken.becomes_use⟩
      · rw [List.mem_singleton.mp ht]
        exact .inr h.inserts

end Moves

/-! ### The invariant -/

/-- The two tables of a healthy database. -/
structure SessionTables (db : Database) : Prop where
  /-- The unique index on the hash. -/
  unique : ∀ t ∈ db.session_tokens.rows, ∀ t' ∈ db.session_tokens.rows,
    t.token_hash = t'.token_hash → t = t'
  belongs : ∀ t ∈ db.session_tokens.rows, db.sessions.hasKey t.session_id = true
  /-- There is an order of the session's tokens in which each was exchanged for the next. -/
  chained : ∀ row ∈ db.sessions.rows, ∃ ts, ts.Perm (db.tokens_of row.id) ∧ IsChain ts
  /-- A token that replaces another does not outlive the session. -/
  within : ∀ row ∈ db.sessions.rows, ∀ t ∈ db.tokens_of row.id, ∀ t' ∈ db.session_tokens.rows,
    t.replaced_by = some t'.id → t'.expires_at ≤ row.expires_at

/-- What holds of sessions in every run. -/
structure SessionInv (db₀ : Database) (s : State) : Prop extends SessionTables s.db where
  locks : s.db.locks.Exclusive
  fresh : sessionNames.Fresh (oldSessionName db₀) (· ∈ s.db.issued) s.log
  session_used : ∀ row ∈ s.db.sessions.rows, sessionNames.Used (oldSessionName db₀) row.id s.log
  token_used : ∀ t ∈ s.db.session_tokens.rows, ∀ n ∈ [t.id, t.token_hash.of.id],
    sessionNames.Used (oldSessionName db₀) n s.log
  timely : ∀ e ∈ s.log, e.before.clock ≤ s.db.clock
  redeemed : ∀ e ∈ s.log, ∀ token, Redeems token e → ∃ t ∈ s.db.session_tokens.rows,
    t.token_hash = hash_secret_token token ∧ t.used_at ≠ none
  once : Throughout (fun e earlier => ∀ token, Redeems token e → ∀ e' ∈ earlier,
    ¬ Redeems token e') s.log

section Effect

variable {P : Platform} {G : Regime} {p : ℕ} {r : Request} {q : Stmt} {x : Except Failure q.Reply}
  {s s' : State} {db₀ db' : Database}

/-- A name `p` holds is none of the tables'. -/
theorem SessionInv.not_held_session (hs : SessionInv db₀ s) {row : SessionRecord}
    (hrow : row ∈ s.db.sessions.rows) : ¬ sessionNames.Held p row.id s.log :=
  fun hheld => (hs.fresh.held p _ hheld).2 (hs.session_used row hrow)

theorem SessionInv.not_held_token (hs : SessionInv db₀ s) {t : SessionToken}
    (ht : t ∈ s.db.session_tokens.rows) : ∀ n ∈ [t.id, t.token_hash.of.id],
    ¬ sessionNames.Held p n s.log :=
  fun n hn hheld => (hs.fresh.held p _ hheld).2 (hs.token_used t ht n hn)

theorem SessionInv.new_session (hs : SessionInv db₀ s) {row : SessionRecord}
    (hheld : sessionNames.Held p row.id s.log) : s.db.sessions.hasKey row.id = false := by
  refine Table.hasKey_eq_false.mpr fun row' hrow' heq => ?_
  exact hs.not_held_session hrow' (heq ▸ hheld)

theorem SessionInv.new_token (hs : SessionInv db₀ s) {t : SessionToken}
    (hheld : sessionNames.Held p t.id s.log) : s.db.session_tokens.hasKey t.id = false := by
  refine Table.hasKey_eq_false.mpr fun t' ht' heq => ?_
  exact hs.not_held_token ht' t'.id List.mem_cons_self (heq ▸ hheld)

theorem SessionInv.unique_of_move (hs : SessionInv db₀ s) (h : SessionMove p r s db' q x) :
    ∀ t ∈ db'.session_tokens.rows, ∀ t' ∈ db'.session_tokens.rows,
      t.token_hash = t'.token_hash → t = t' := by
  intro t₁ ht₁ t₂ ht₂ hhash
  have hnew : ∀ {t t' : SessionToken}, t ∈ s.db.session_tokens.rows →
      Inserts p r s ⟨p, r, s.db, q, x⟩ t' → t.token_hash ≠ t'.token_hash := by
    intro t t' ht hinserts heq
    refine hs.not_held_token (p := p) ht t.token_hash.of.id (by simp) ?_
    rw [heq]
    exact hinserts.held _ (by simp)
  rcases h.token_origin ht₁ with ⟨t, ht, hbecomes⟩ | hinserts <;>
    rcases h.token_origin ht₂ with ⟨t', ht', hbecomes'⟩ | hinserts'
  · rw [hbecomes.token_hash, hbecomes'.token_hash] at hhash
    refine db'.session_tokens.eq_of_key_eq ht₁ ht₂ ?_
    rw [hbecomes.id, hbecomes'.id, hs.unique t ht t' ht' hhash]
  · exact absurd (hbecomes.token_hash.symm.trans hhash) (hnew ht hinserts')
  · exact absurd (hbecomes'.token_hash.symm.trans hhash.symm) (hnew ht' hinserts)
  · exact hinserts.eq hinserts'

theorem SessionInv.belongs_of_move (hs : SessionInv db₀ s) (h : SessionMove p r s db' q x) :
    ∀ t ∈ db'.session_tokens.rows, db'.sessions.hasKey t.session_id = true := by
  intro t' ht'
  have hold : ∀ id, s.db.sessions.hasKey id = true → db'.sessions.hasKey id = true := by
    intro id hid
    obtain ⟨row, hrow, rfl⟩ := Table.hasKey_iff.mp hid
    obtain ⟨row', hrow', hbecomes⟩ := h.sessions_kept row hrow
    exact Table.hasKey_iff.mpr ⟨row', hrow', hbecomes.id⟩
  rcases h.token_origin ht' with ⟨t, ht, hbecomes⟩ | hinserts
  · rw [hbecomes.session_id]
    exact hold _ (hs.belongs t ht)
  · obtain ⟨ws, heq, htoken⟩ := hinserts.commits
    cases h with
    | idle hquiet _ => exact absurd (heq ▸ trivial) hquiet
    | revoke hquiet _ _ _ => exact absurd (heq ▸ trivial) hquiet
    | create h hsessions _ =>
      cases heq
      obtain rfl := List.singleton_inj.mp htoken
      rw [h.belongs, hsessions]
      exact Table.hasKey_insertNew_self _ _
    | rotate h _ _ =>
      cases heq
      obtain rfl := List.singleton_inj.mp htoken
      rw [h.same_session, ← h.belongs]
      exact hold _ (hs.belongs _ h.mem_token)

/-- A session that is opened has had no tokens. -/
theorem SessionInv.tokens_of_new (hs : SessionInv db₀ s) {row : SessionRecord}
    (hheld : sessionNames.Held p row.id s.log) : s.db.tokens_of row.id = [] := by
  refine List.filter_eq_nil_iff.mpr fun t ht heq => ?_
  have hkey := hs.belongs t ht
  rw [beq_iff_eq.mp heq, hs.new_session hheld] at hkey
  cases hkey

/-- The tokens of a session after an exchange. -/
theorem Exchanges.tokens_of {token : SecretToken} {t t' : SessionToken} {sess : SessionRecord}
    {now : Timestamp} (h : Exchanges p r s token t sess t')
    (hkey : s.db.session_tokens.hasKey t'.id = false)
    (htokens : db'.session_tokens.rows =
      (s.db.session_tokens.insertNew t').rows.map (·.use t.id now t'.id)) (id : Uuid) :
    db'.tokens_of id = (s.db.tokens_of id).map (·.use t.id now t'.id) ++
      if sess.id = id then [t'] else [] := by
  rw [Database.tokens_of, htokens, h.rows hkey, List.filter_append, List.filter_map]
  refine congrArg₂ _ ?_ ?_
  · refine congrArg _ (List.filter_congr fun t₁ _ => ?_)
    exact congrArg (· == id) SessionToken.use_session_id
  · rw [← h.same_session]
    by_cases hid : t'.session_id = id <;> simp [hid]

/-- An exchange leaves the tokens of the other sessions alone. -/
theorem Exchanges.map_use {token : SecretToken} {t t' : SessionToken} {sess : SessionRecord}
    {now : Timestamp} {id : Uuid} (h : Exchanges p r s token t sess t') (hid : sess.id ≠ id) :
    (s.db.tokens_of id).map (·.use t.id now t'.id) = s.db.tokens_of id := by
  refine (List.map_congr_left fun t₁ ht₁ => ?_).trans (List.map_id _)
  obtain ⟨hmem, hsession⟩ := Database.mem_tokens_of.mp ht₁
  refine SessionToken.use_of_ne fun heq => hid ?_
  rw [← h.belongs, ← hsession, s.db.session_tokens.eq_of_key_eq hmem h.mem_token heq]

theorem SessionInv.chained_of_move (hs : SessionInv db₀ s) (h : SessionMove p r s db' q x) :
    ∀ row ∈ db'.sessions.rows, ∃ ts, ts.Perm (db'.tokens_of row.id) ∧ IsChain ts := by
  intro row' hrow'
  have hsame : db'.session_tokens = s.db.session_tokens → ∀ row ∈ s.db.sessions.rows,
      row.Becomes row' → ∃ ts, ts.Perm (db'.tokens_of row'.id) ∧ IsChain ts := by
    intro htokens row hrow hbecomes
    rw [hbecomes.id, Database.tokens_of, htokens]
    exact hs.chained row hrow
  have horigin := h.session_origin hrow'
  cases h with
  | idle hquiet h =>
    rcases horigin with ⟨row, hrow, hbecomes⟩ | ⟨t, -, heq⟩
    · exact hsame h.session_tokens row hrow hbecomes
    · exact absurd (heq ▸ trivial) hquiet
  | revoke hquiet _ _ htokens =>
    rcases horigin with ⟨row, hrow, hbecomes⟩ | ⟨t, -, heq⟩
    · exact hsame htokens row hrow hbecomes
    · exact absurd (heq ▸ trivial) hquiet
  | @create row t h _ htokens =>
    have htokens_of : ∀ id, db'.tokens_of id = s.db.tokens_of id ++
        if row.id = id then [t] else [] := by
      intro id
      rw [Database.tokens_of, htokens, Table.rows_insertNew_of_not (hs.new_token h.held_token),
        List.filter_append, ← h.belongs]
      by_cases hid : t.session_id = id <;> simp [hid, Database.tokens_of]
    rw [htokens_of]
    rcases horigin with ⟨row₀, hrow₀, hbecomes⟩ | ⟨t₀, -, heq⟩
    · have hne : row.id ≠ row'.id := by
        intro heq
        rw [hbecomes.id] at heq
        exact hs.not_held_session hrow₀ (heq ▸ h.held_session)
      rw [if_neg hne, List.append_nil, hbecomes.id]
      exact hs.chained row₀ hrow₀
    · cases heq
      rw [hs.tokens_of_new h.held_session, if_pos rfl]
      exact ⟨[t], .refl _, h.unused, h.unreplaced⟩
  | @rotate token t t' sess now h _ htokens =>
    rw [h.tokens_of (hs.new_token h.held_token) htokens]
    rcases horigin with ⟨row, hrow, hbecomes⟩ | ⟨t₀, -, heq⟩
    · obtain ⟨ts, hperm, hchain⟩ := hs.chained row hrow
      rw [hbecomes.id]
      by_cases hid : sess.id = row.id
      · -- The chain of this session grows by the new token.
        have ht : t ∈ ts := hperm.mem_iff.mpr
          (Database.mem_tokens_of.mpr ⟨h.mem_token, h.belongs.trans hid⟩)
        rw [if_pos hid]
        refine ⟨_, (hperm.map _).append_right _, hchain.rotate ht h.live ?_ h.unused h.unreplaced⟩
        intro t₁ ht₁ heq
        have hmem := (Database.mem_tokens_of.mp (hperm.mem_iff.mp ht₁)).1
        exact s.db.session_tokens.eq_of_key_eq hmem h.mem_token heq
      · rw [if_neg hid, List.append_nil, h.map_use hid]
        exact ⟨ts, hperm, hchain⟩
    · cases heq

/-- What a token was replaced by is in the table. -/
theorem SessionInv.replacement_used (hs : SessionInv db₀ s) {row : SessionRecord}
    {t : SessionToken} {id : Uuid} (hrow : row ∈ s.db.sessions.rows)
    (ht : t ∈ s.db.tokens_of row.id) (hid : t.replaced_by = some id) :
    ¬ sessionNames.Held p id s.log := by
  obtain ⟨ts, hperm, hchain⟩ := hs.chained row hrow
  obtain ⟨t', ht', rfl⟩ := hchain.exists_replacement (hperm.mem_iff.mpr ht) hid
  exact hs.not_held_token (Database.mem_tokens_of.mp (hperm.mem_iff.mp ht')).1 _ (by simp)

/-- The row a token that was replaced has been replaced by, before and after. -/
theorem SessionInv.within_of_old (hs : SessionInv db₀ s) (h : SessionMove p r s db' q x)
    {row row' : SessionRecord} {t t' : SessionToken} (hrow : row ∈ s.db.sessions.rows)
    (hbecomes : row.Becomes row') (ht : t ∈ s.db.tokens_of row.id)
    (ht' : t' ∈ db'.session_tokens.rows) (hreplaced : t.replaced_by = some t'.id) :
    t'.expires_at ≤ row'.expires_at := by
  rw [hbecomes.expires_at]
  rcases h.token_origin ht' with ⟨t₁, ht₁, hbecomes₁⟩ | hinserts
  · rw [hbecomes₁.expires_at]
    rw [hbecomes₁.id] at hreplaced
    exact hs.within row hrow t ht t₁ ht₁ hreplaced
  · exact absurd (hinserts.held _ (by simp)) (hs.replacement_used hrow ht hreplaced)

theorem SessionInv.within_of_move (hs : SessionInv db₀ s) (h : SessionMove p r s db' q x) :
    ∀ row ∈ db'.sessions.rows, ∀ t ∈ db'.tokens_of row.id, ∀ t' ∈ db'.session_tokens.rows,
      t.replaced_by = some t'.id → t'.expires_at ≤ row.expires_at := by
  intro row' hrow' t ht t' ht' hreplaced
  have hmove := h
  have horigin := h.session_origin hrow'
  obtain ⟨hmem, hsession⟩ := Database.mem_tokens_of.mp ht
  cases h with
  | idle hquiet h =>
    rcases horigin with ⟨row, hrow, hbecomes⟩ | ⟨_, -, heq⟩
    · refine hs.within_of_old hmove hrow hbecomes (Database.mem_tokens_of.mpr ⟨?_, ?_⟩)
        ht' hreplaced
      · exact h.session_tokens ▸ hmem
      · exact hsession.trans hbecomes.id
    · exact absurd (heq ▸ trivial) hquiet
  | revoke hquiet _ _ htokens =>
    rcases horigin with ⟨row, hrow, hbecomes⟩ | ⟨_, -, heq⟩
    · refine hs.within_of_old hmove hrow hbecomes (Database.mem_tokens_of.mpr ⟨?_, ?_⟩)
        ht' hreplaced
      · exact htokens ▸ hmem
      · exact hsession.trans hbecomes.id
    · exact absurd (heq ▸ trivial) hquiet
  | create h _ htokens =>
    rw [htokens] at hmem
    rcases Table.mem_insertNew.mp hmem with hmem | ⟨rfl, -⟩
    · rcases horigin with ⟨row, hrow, hbecomes⟩ | ⟨_, -, heq⟩
      · exact hs.within_of_old hmove hrow hbecomes
          (Database.mem_tokens_of.mpr ⟨hmem, hsession.trans hbecomes.id⟩) ht' hreplaced
      · cases heq
        have hnone : t ∈ s.db.tokens_of row'.id := Database.mem_tokens_of.mpr ⟨hmem, hsession⟩
        rw [hs.tokens_of_new h.held_session] at hnone
        cases hnone
    · rw [h.unreplaced] at hreplaced
      cases hreplaced
  | @rotate token t₀ t₁ sess now h _ htokens =>
    have hkey := hs.new_token h.held_token
    rcases horigin with ⟨row, hrow, hbecomes⟩ | ⟨_, -, heq⟩
    · rw [htokens, h.rows hkey, List.mem_append] at hmem
      rcases hmem with hmem | hmem
      · obtain ⟨t₂, ht₂, rfl⟩ := List.mem_map.mp hmem
        rw [SessionToken.use_session_id, hbecomes.id] at hsession
        by_cases hid : t₂.id = t₀.id
        · -- The token that is exchanged, for the one that is inserted.
          obtain rfl := s.db.session_tokens.eq_of_key_eq ht₂ h.mem_token hid
          rw [SessionToken.use_self] at hreplaced
          have hnew : t' = t₁ := by
            rw [htokens, h.rows hkey, List.mem_append] at ht'
            rcases ht' with ht' | ht'
            · obtain ⟨t₃, ht₃, rfl⟩ := List.mem_map.mp ht'
              rw [SessionToken.use_id] at hreplaced
              exact absurd (Option.some.inj hreplaced).symm (Table.hasKey_eq_false.mp hkey t₃ ht₃)
            · exact List.mem_singleton.mp ht'
          have hsess : row = sess :=
            s.db.sessions.eq_of_key_eq hrow h.mem_session (hsession.symm.trans h.belongs)
          rw [hnew, hbecomes.expires_at, hsess]
          exact h.within
        · rw [SessionToken.use_of_ne hid] at hreplaced
          exact hs.within_of_old hmove hrow hbecomes
            (Database.mem_tokens_of.mpr ⟨ht₂, hsession⟩) ht' hreplaced
      · rw [List.mem_singleton.mp hmem, h.unreplaced] at hreplaced
        cases hreplaced
    · cases heq

/-- A refresh that is committed exchanges the token it was shown. -/
theorem SessionMove.redeemed {token : SecretToken} (h : SessionMove p r s db' q x)
    (hr : Redeems token ⟨p, r, s.db, q, x⟩) :
    (∃ t ∈ s.db.session_tokens.rows, t.token_hash = hash_secret_token token ∧ t.used_at = none) ∧
      ∃ t ∈ db'.session_tokens.rows, t.token_hash = hash_secret_token token ∧ t.used_at ≠ none := by
  unfold Redeems at hr
  split at hr
  · next heq =>
    cases heq
    subst hr
    cases h with
    | idle hquiet _ => exact absurd trivial hquiet
    | revoke hquiet _ _ _ => exact absurd trivial hquiet
    | create h _ _ => exact absurd rfl (h.request _)
    | @rotate token t₀ t₁ sess now h _ htokens =>
      obtain rfl := Request.refresh.inj h.request
      refine ⟨⟨t₀, h.mem_token, h.shown, h.live⟩, t₀.use t₀.id now t₁.id, ?_, ?_, ?_⟩
      · rw [htokens]
        exact List.mem_map_of_mem (Table.mem_insertNew_of_mem h.mem_token)
      · rw [SessionToken.use_token_hash]
        exact h.shown
      · rw [SessionToken.use_self]
        exact nofun
  · exact hr.elim

/-- A name that is given is new. -/
theorem new_of_gives {c : Choice} {db : Database} {n p' : ℕ}
    (hrun : q.run P p c s.db = some (db, x)) (hg : sessionNames.gives p' n ⟨p, r, s.db, q, x⟩) :
    n ∉ s.db.issued ∧ n ∈ db.issued := by
  unfold sessionNames at hg
  dsimp only at hg
  split at hg
  · next heq =>
    cases heq
    obtain ⟨-, rfl⟩ := hg
    simp only [Stmt.run] at hrun
    split at hrun <;> cases hrun
    exact ⟨of_decide_eq_true ‹_›, List.mem_cons_self⟩
  · next heq =>
    cases heq
    obtain ⟨-, rfl⟩ := hg
    simp only [Stmt.run, SessionStmt.run] at hrun
    split at hrun
    · next hfree =>
      (repeat' split at hrun) <;> cases hrun
      exact ⟨of_decide_eq_true (Bool.and_eq_true_iff.mp hfree).1, List.mem_cons_self⟩
    · cases hrun
  · next heq =>
    cases heq
    obtain ⟨-, rfl⟩ := hg
    simp only [Stmt.run, SessionStmt.run] at hrun
    split at hrun
    · next hfree =>
      (repeat' split at hrun) <;> cases hrun
      exact ⟨of_decide_eq_true hfree, List.mem_cons_self⟩
    · cases hrun
  · next heq =>
    cases heq
    obtain ⟨-, rfl⟩ := hg
    simp only [Stmt.run, SessionStmt.run] at hrun
    split at hrun
    · cases hrun
    · split at hrun
      · next hfree =>
        (repeat' split at hrun) <;> cases hrun
        exact ⟨of_decide_eq_true hfree, List.mem_cons_self⟩
      · cases hrun
  · exact hg.elim

theorem pid_of_gives {e : Event} {n : ℕ} (h : sessionNames.gives p n e) : e.pid = p := by
  unfold sessionNames at h
  dsimp only at h
  split at h
  · exact h.1
  · exact h.1
  · exact h.1
  · exact h.1
  · exact h.elim

theorem pid_of_uses {e : Event} {n : ℕ} (h : sessionNames.uses p n e) : e.pid = p := by
  unfold sessionNames at h
  dsimp only at h
  split at h
  · exact h.1
  · exact h.elim

/-- The names stay fresh. -/
theorem fresh_sessionNames (hs : SessionInv db₀ s) (hpre : SessionPre p r s q)
    (h : G.Effect (store P) p r q s x s') :
    sessionNames.Fresh (oldSessionName db₀) (· ∈ s'.db.issued) s'.log := by
  have huses : ∀ p' n, sessionNames.uses p' n ⟨p, r, s.db, q, x⟩ →
      sessionNames.Held p' n s.log := by
    intro p' n hu
    obtain rfl := pid_of_uses hu
    unfold sessionNames at hu
    dsimp only at hu
    split at hu
    · next heq =>
      cases heq
      obtain ⟨-, hn⟩ := hu
      cases hpre with
      | create hc =>
        rcases List.mem_append.mp hn with hn | hn
        · rw [List.mem_singleton.mp hn]
          exact hc.held_session
        · exact held_of_pair hc.held_token hc.held_hash n (by simpa [Write.sessionNames] using hn)
      | rotate hc =>
        exact held_of_pair hc.held_token hc.held_hash n (by simpa [Write.sessionNames] using hn)
    · exact hu.elim
  rw [h.log_eq]
  cases h with
  | fail _ =>
    refine hs.fresh.cons (fun _ hn => hn) (fun p' n hg => ?_) huses
    unfold sessionNames at hg
    dsimp only at hg
    split at hg
    · next heq => cases heq
    · next heq => cases heq
    · next heq => cases heq
    · next heq => cases heq
    · exact hg.elim
  | @run c db x _ hrun =>
    refine hs.fresh.cons (fun n hn => ?_) (fun p' n hg => ?_) huses
    · obtain ⟨new, hnew⟩ := Stmt.issued_mono hrun
      rw [Shared.push_db, hnew]
      exact List.mem_append_right _ hn
    · obtain ⟨hunused, hissued⟩ := new_of_gives (r := r) hrun hg
      exact ⟨hunused, hissued, fun p'' hg' => (pid_of_gives hg').symm.trans (pid_of_gives hg)⟩

/-- Every statement keeps the invariant. -/
theorem sessionInv_of_effect (hs : SessionInv db₀ s) (hpre : SessionPre p r s q)
    (h : G.Effect (store P) p r q s x s') : SessionInv db₀ s' := by
  have hmove := sessionMove_of_effect hpre h
  have hmono : ∀ {n}, sessionNames.Used (oldSessionName db₀) n s.log →
      sessionNames.Used (oldSessionName db₀) n s'.log := fun hn => hn.mono fun _ => h.mem
  refine ⟨⟨hs.unique_of_move hmove, hs.belongs_of_move hmove, hs.chained_of_move hmove,
    hs.within_of_move hmove⟩, (locks_moved_of_effect h).exclusive hs.locks,
    fresh_sessionNames hs hpre h, fun row' hrow' => ?_, fun t' ht' n hn => ?_, fun e he => ?_,
    fun e he token hr => ?_, ?_⟩
  · rcases hmove.session_origin hrow' with ⟨row, hrow, hbecomes⟩ | ⟨t, -, heq⟩
    · rw [hbecomes.id]
      exact hmono (hs.session_used row hrow)
    · refine .inr ⟨_, h.mem_self, p, ?_⟩
      rw [heq]
      exact ⟨rfl, by simp [Write.sessionNames]⟩
  · rcases hmove.token_origin ht' with ⟨t, ht, hbecomes⟩ | hinserts
    · rw [hbecomes.id, hbecomes.token_hash] at hn
      exact hmono (hs.token_used t ht n hn)
    · exact .inr ⟨_, h.mem_self, p, hinserts.uses n hn⟩
  · rw [clock_of_effect h]
    rw [h.log_eq] at he
    rcases List.mem_cons.mp he with rfl | he
    · exact le_rfl
    · exact hs.timely e he
  · rw [h.log_eq] at he
    rcases List.mem_cons.mp he with rfl | he
    · exact (hmove.redeemed hr).2
    · obtain ⟨t, ht, hhash, hused⟩ := hs.redeemed e he token hr
      obtain ⟨t', ht', hbecomes⟩ := hmove.tokens_kept t ht
      exact ⟨t', ht', hbecomes.token_hash.trans hhash, hbecomes.used_at hused⟩
  · rw [h.log_eq]
    refine ⟨fun token hr e' he' hr' => ?_, hs.once⟩
    obtain ⟨t, ht, hhash, hlive⟩ := (hmove.redeemed hr).1
    obtain ⟨t', ht', hhash', hused⟩ := hs.redeemed e' he' token hr'
    rw [hs.unique t ht t' ht' (hhash.trans hhash'.symm)] at hlive
    exact hused hlive

/-- Where a run begins. -/
theorem SessionInv.start (h : SessionTables db₀) (hlocks : db₀.locks.Exclusive)
    (hissued : ∀ n, oldSessionName db₀ n → n ∈ db₀.issued) : SessionInv db₀ ⟨db₀, []⟩ where
  toSessionTables := h
  locks := hlocks
  fresh := Naming.fresh_nil hissued
  session_used row hrow := .inl (.inl ⟨row, hrow, rfl⟩)
  token_used t ht n hn := by
    refine .inl (.inr ⟨t, ht, ?_⟩)
    rcases List.mem_cons.mp hn with rfl | hn
    · exact .inl rfl
    · exact .inr (List.mem_singleton.mp hn).symm
  timely e he := absurd he List.not_mem_nil
  redeemed e he := absurd he List.not_mem_nil
  once := throughout_nil

/-! ### What others can rely on -/

/-- Between two statements of `p`: sessions stay, and the rows `p` has locked do not change. -/
structure SessionRely (p : ℕ) (s s' : State) : Prop where
  kept : ∀ row ∈ s.db.sessions.rows, ∃ row' ∈ s'.db.sessions.rows, row.Becomes row'
  presented : ∀ t sess, Presented p t sess s.db → Presented p t sess s'.db

theorem SessionRely.refl (p : ℕ) (s : State) : SessionRely p s s :=
  ⟨fun row hrow => ⟨row, hrow, .refl row⟩, fun _ _ h => h⟩

theorem SessionRely.trans {p : ℕ} {s s' s'' : State} (h : SessionRely p s s')
    (h' : SessionRely p s' s'') : SessionRely p s s'' := by
  refine ⟨fun row hrow => ?_, fun t sess hp => h'.presented t sess (h.presented t sess hp)⟩
  obtain ⟨row', hrow', hbecomes⟩ := h.kept row hrow
  obtain ⟨row'', hrow'', hbecomes'⟩ := h'.kept row' hrow'
  exact ⟨row'', hrow'', hbecomes.trans hbecomes'⟩

theorem SessionRely.revoked {s s' : State} {id : Uuid} (h : SessionRely p s s')
    (hrevoked : s.db.Revoked id) : s'.db.Revoked id := by
  obtain ⟨row, hrow, rfl, hne⟩ := hrevoked
  obtain ⟨row', hrow', hbecomes⟩ := h.kept row hrow
  exact ⟨row', hrow', hbecomes.id, hbecomes.revoked_at hne⟩

/-- A row that somebody has locked is not changed by others. -/
theorem SessionMove.presented {p' : ℕ} (hs : SessionInv db₀ s) (h : SessionMove p r s db' q x)
    (hne : p' ≠ p) {t : SessionToken} {sess : SessionRecord} (hp : Presented p' t sess s.db) :
    t ∈ db'.session_tokens.rows ∧ sess ∈ db'.sessions.rows := by
  cases h with
  | idle _ h => exact ⟨h.session_tokens ▸ hp.mem_token, h.sessions ▸ hp.mem_session⟩
  | @revoke _ _ sel now _ hfree hsessions htokens =>
    refine ⟨htokens ▸ hp.mem_token, ?_⟩
    have hsel : sel sess = false := by
      by_contra hsel
      rw [Bool.not_eq_false] at hsel
      have hgranted := hfree sess hp.mem_session hsel
      rw [Database.free, Locks.not_grantable hp.holds_session hne rfl] at hgranted
      cases hgranted
    rw [hsessions]
    exact List.mem_map.mpr ⟨sess, hp.mem_session, by simp [hsel]⟩
  | create _ hsessions htokens =>
    rw [hsessions, htokens]
    exact ⟨Table.mem_insertNew_of_mem hp.mem_token, Table.mem_insertNew_of_mem hp.mem_session⟩
  | @rotate token t₀ t₁ sess₀ now h hsessions htokens =>
    have htoken : t.id ≠ t₀.id := by
      intro heq
      exact hne (hs.locks.eq_of_holds hp.holds_token (heq ▸ h.holds_token) rfl)
    have hsession : sess.id ≠ sess₀.id := by
      intro heq
      exact hne (hs.locks.eq_of_holds hp.holds_session (heq ▸ h.holds_session) rfl)
    rw [hsessions, htokens]
    refine ⟨List.mem_map.mpr ⟨t, Table.mem_insertNew_of_mem hp.mem_token, ?_⟩,
      List.mem_map.mpr ⟨sess, hp.mem_session, ?_⟩⟩
    · exact SessionToken.use_of_ne htoken
    · simp [hsession]

theorem sessionRely_of_effect {p' : ℕ} (hs : SessionInv db₀ s) (hpre : SessionPre p r s q)
    (h : G.Effect (store P) p r q s x s') (hne : p' ≠ p) : SessionRely p' s s' := by
  have hmove := sessionMove_of_effect hpre h
  have hlocks := locks_moved_of_effect h
  refine ⟨hmove.sessions_kept, fun t sess hp => ?_⟩
  obtain ⟨htoken, hsession⟩ := hmove.presented hs hne hp
  exact ⟨htoken, hsession, hp.belongs, hlocks.holds hp.holds_token hne,
    hlocks.holds hp.holds_session hne⟩

end Effect

/-- **The logic of sessions.** -/
def sessionLogic (P : Platform) (G : Regime) (db₀ : Database) : Logic G (store P) where
  inv := SessionInv db₀
  rely := SessionRely
  pre p r q s := SessionPre p r s q
  rely_refl := SessionRely.refl
  rely_trans := SessionRely.trans
  sound hs hpre h :=
    ⟨sessionInv_of_effect hs hpre h, fun _ hne => sessionRely_of_effect hs hpre h hne⟩
  stop_sound _ hs := by
    refine ⟨{ hs with locks := hs.locks.release }, fun p' hne => ⟨fun row hrow => ?_, ?_⟩⟩
    · exact ⟨row, hrow, .refl row⟩
    · exact fun t sess hp => ⟨hp.mem_token, hp.mem_session, hp.belongs,
        hp.holds_token.release_of_ne hne, hp.holds_session.release_of_ne hne⟩
  pass_sound hs := by
    refine ⟨{ hs with timely := fun e he => (hs.timely e he).trans (Nat.le_add_right _ _) },
      fun p' => ⟨fun row hrow => ⟨row, hrow, .refl row⟩, ?_⟩⟩
    exact fun t sess hp => ⟨hp.mem_token, hp.mem_session, hp.belongs, hp.holds_token,
      hp.holds_session⟩

end SubmitSnap
