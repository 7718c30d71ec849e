import SubmitSnap.Identity.OneTimeTokens
import SubmitSnap.Identity.PasswordHash
import SubmitSnap.Interleave.Alone

/-!
# Password resets that fail half-way

A reset consumes its link, stores the new hash and revokes the account's sessions, each in a
transaction of its own. When it comes to a stop in between, the link is gone for nothing, or the
password is changed and whoever was signed in before still is.

## The argument

The reset is alone here: what is asked is which prefixes of its statements leave something behind
that should not be. There are six statements, and a list of fates says which of them take effect.
`ResetLands` counts how many do before one does not. With none, nothing has happened; with five or
more, the last thing that matters has. Between them the link is consumed and the password may or
may not be changed, and the sessions are as they were, which is only harmless if there were none
to revoke. Since the theorem is an equivalence over every list of fates, there is no other way in
which a reset is left half done.

The hypotheses of `ResetsWith` are what makes the question meaningful: a link that works, and a
new hash that differs from the stored one. Without the second a reset that stores nothing could
not be told from one that does.

## Main results

* `resetAtomic_iff` — a reset is all or nothing exactly if it comes to no such stop.
* `not_resetAtomic` — the hash is stored and the revocation fails.
-/

namespace SubmitSnap

open Interleave

/-- The session is accepted. -/
def SessionRecord.Active (s : SessionRecord) (clock : Timestamp) : Prop :=
  s.revoked_at = none ∧ clock < s.expires_at

/-- A link with this hash resets a password. -/
def Redeemable (hash : TokenHash) (db : Database) : Prop :=
  ∃ t ∈ db.one_time_tokens.rows, t.token_hash = hash ∧ t.purpose = .password_reset ∧
    t.Live db.clock

/-- The link still works, and its account and all sessions are as they were. -/
def ResetUndone (t : OneTimeToken) (db db' : Database) : Prop :=
  Redeemable t.token_hash db' ∧ (∀ u ∈ db.users.rows, u.id = t.user_id → u ∈ db'.users.rows) ∧
    db'.sessions = db.sessions

/-- The hash of the new password, under a salt of its own, is stored, and the sessions that were
active are revoked. -/
def ResetDone (P : Platform) (new_password : String) (t : OneTimeToken) (db db' : Database) :
    Prop :=
  (∃ u ∈ db'.users.rows, u.id = t.user_id ∧ ∃ salt ∈ db'.issued, salt ∉ db.issued ∧
    u.password_hash = P.argon2_hash new_password salt) ∧
  ∀ s ∈ db.sessions.rows, s.user_id = t.user_id → s.Active db.clock →
    ∃ s' ∈ db'.sessions.rows, s'.id = s.id ∧ s'.revoked_at ≠ none

/-- The reset has changed nothing that matters, or everything it is for. -/
def ResetAtomic (P : Platform) (new_password : String) (t : OneTimeToken) (db db' : Database) :
    Prop :=
  ResetUndone t db db' ∨ ResetDone P new_password t db db'

/-- The link is not consumed, or all of the hash, its storage and the revocation follow; or all
but the revocation, where there is nothing to revoke. The number is that of the statements that
take effect: the redemption is the first, the update the third, the revocation the fifth. -/
def ResetLands (t : OneTimeToken) (db : Database) (fates : List (Fate Failure Choice)) : Prop :=
  Fate.landed fates = 0 ∨ 5 ≤ Fate.landed fates ∨
    (3 ≤ Fate.landed fates ∧
      ∀ s ∈ db.sessions.rows, s.user_id = t.user_id → ¬ s.Active db.clock)

/-- What the reset counts on: a link of an account that exists, and a fresh salt making a hash that
is not the stored one. -/
structure ResetsWith (P : Platform) (new_password : String) (t : OneTimeToken) (db : Database) :
    Prop where
  mem : t ∈ db.one_time_tokens.rows
  purpose : t.purpose = .password_reset
  live : t.Live db.clock
  /-- The unique index. -/
  unique : ∀ t' ∈ db.one_time_tokens.rows, t'.token_hash = t.token_hash → t' = t
  /-- The foreign key. -/
  account : ∃ u ∈ db.users.rows, u.id = t.user_id
  salted : ∀ u ∈ db.users.rows, u.id = t.user_id → ∀ salt, salt ∉ db.issued →
    u.password_hash ≠ P.argon2_hash new_password salt

section Reset

variable {P : Platform} {p : ℕ} {c : Choice} {new_password : String} {t : OneTimeToken}
  {db db₁ db₂ db' : Database}

/-- The redemption of a live link. -/
theorem ResetsWith.run_consume {x : Except Failure (Option Uuid)}
    (ht : ResetsWith P new_password t db)
    (h : (store P).run p (.one_time_tokens (.consume t.token_hash .password_reset)) c db =
      some (db₁, x)) :
    x = .ok (some t.user_id) ∧ ¬ Redeemable t.token_hash db₁ ∧ db₁.users = db.users ∧
      db₁.sessions = db.sessions ∧ db₁.issued = db.issued := by
  simp only [store, Stmt.run, OneTimeTokenStmt.run] at h
  split at h
  · next hnone =>
    have hnot := List.find?_eq_none.mp hnone t ht.mem
    simp [ht.purpose, ht.live.1, ht.live.2] at hnot
  · next t' hfind =>
    have hhash : t'.token_hash = t.token_hash := by
      have hsel := List.find?_some hfind
      simp only [Bool.and_eq_true, beq_iff_eq] at hsel
      exact hsel.1.1.1
    obtain rfl := ht.unique t' (List.mem_of_find?_eq_some hfind) hhash
    split at h <;> cases h
    refine ⟨rfl, ?_, rfl, rfl, rfl⟩
    rintro ⟨t₁, ht₁, hhash₁, -, hlive₁⟩
    obtain ⟨t₀, ht₀, hbecomes, hconsumed⟩ := OneTimeToken.becomes_of_mem_updateWhere ht₁
    obtain rfl := hbecomes.eq_of_unconsumed hlive₁.1
    obtain rfl := ht.unique t₁ ht₀ hhash₁
    have heq := hconsumed (beq_iff_eq.mpr rfl)
    rw [hlive₁.1] at heq
    cases heq

/-- Without the update the new hash is not stored. -/
theorem ResetsWith.not_done (ht : ResetsWith P new_password t db) (hdb' : db'.users = db.users) :
    ¬ ResetDone P new_password t db db' := by
  rintro ⟨⟨u, hu, hid, salt, -, hnew, hhash⟩, -⟩
  rw [hdb'] at hu
  exact ht.salted u hu hid salt hnew hhash

/-- What the update stores. -/
theorem ResetsWith.run_update {salt : ℕ} {x : Except Failure Unit}
    (ht : ResetsWith P new_password t db) (husers : db₁.users = db.users)
    (h : (store P).run p (.users (.update_password t.user_id (P.argon2_hash new_password salt))) c
      db₁ = some (db₂, x)) :
    x = .ok () ∧ (∃ u ∈ db₂.users.rows, u.id = t.user_id ∧
        u.password_hash = P.argon2_hash new_password salt) ∧
      db₂.one_time_tokens = db₁.one_time_tokens ∧ db₂.sessions = db₁.sessions ∧
      db₂.issued = db₁.issued ∧ db₂.clock = db₁.clock := by
  simp only [store, Stmt.run, UserStmt.run] at h
  split at h <;> cases h
  obtain ⟨u, hu, hid⟩ := ht.account
  rw [← husers] at hu
  refine ⟨rfl, ⟨_, List.mem_map_of_mem hu, ?_⟩, rfl, rfl, rfl, rfl⟩
  simp [hid]

/-- Without the revocation the active sessions stay active. -/
theorem resetDone_iff_of_sessions (hdb' : db'.sessions = db.sessions)
    (hhash : ∃ u ∈ db'.users.rows, u.id = t.user_id ∧ ∃ salt ∈ db'.issued, salt ∉ db.issued ∧
      u.password_hash = P.argon2_hash new_password salt) :
    ResetDone P new_password t db db' ↔
      ∀ s ∈ db.sessions.rows, s.user_id = t.user_id → ¬ s.Active db.clock := by
  constructor
  · rintro ⟨-, hrevoked⟩ s hs huser hactive
    obtain ⟨s', hs', hid, hne⟩ := hrevoked s hs huser hactive
    rw [hdb'] at hs'
    rw [db.sessions.eq_of_key_eq hs' hs hid] at hne
    exact hne hactive.1
  · exact fun hnone => ⟨hhash, fun s hs huser hactive => absurd hactive (hnone s hs huser)⟩

/-- A revocation revokes what it selects. -/
theorem Database.mem_revokeSessions {sel : SessionRecord → Bool} {now : Timestamp}
    {s : SessionRecord} (hs : s ∈ db.sessions.rows) (hsel : sel s = true)
    (hactive : s.revoked_at = none) :
    { s with revoked_at := some now } ∈ (db.revokeSessions sel now).sessions.rows := by
  refine List.mem_map.mpr ⟨s, hs, if_pos ?_⟩
  dsimp only
  rw [hsel, hactive]
  rfl

/-- What the end of a reset leaves alone. -/
structure AfterUpdate (db db' : Database) : Prop where
  users : db'.users = db.users
  one_time_tokens : db'.one_time_tokens = db.one_time_tokens
  issued : db'.issued = db.issued
  clock : db'.clock = db.clock

/-- The read for the audit trail. -/
theorem afterUpdate_of_find {user_id : Uuid} {fates : List (Fate Failure Choice)}
    {y : Option (Except IdentityError Unit)}
    (h : (store P).faulty p (do
      let _ ← ask (.users (.find_by_id user_id))
      return () : Code IdentityError Unit) fates db = some (y, db')) :
    AfterUpdate db db' ∧ db'.sessions = db.sessions := by
  rcases Store.of_faulty_query_bind h with ⟨-, -, rfl⟩ | ⟨x, rest, -, -, rfl⟩ |
    ⟨c, rest, a, db₁, -, hrun, hrest⟩ | ⟨c, rest, x, -, hrun, -⟩
  · exact ⟨⟨rfl, rfl, rfl, rfl⟩, rfl⟩
  · exact ⟨⟨rfl, rfl, rfl, rfl⟩, rfl⟩
  · cases hrun
    cases hrest
    exact ⟨⟨rfl, rfl, rfl, rfl⟩, rfl⟩
  · cases hrun

/-- **The revocation** touches every active session, if both its steps take effect, and none if one
does not. -/
theorem revocation_lands {user_id : Uuid} {fates : List (Fate Failure Choice)}
    {y : Option (Except IdentityError Unit)}
    (h : (store P).faulty p (do
      let _ ← IdentityService.revoke_sessions user_id none
      let _ ← ask (.users (.find_by_id user_id))
      return () : Code IdentityError Unit) fates db = some (y, db')) :
    AfterUpdate db db' ∧
      ((Fate.landed fates < 2 ∧ db'.sessions = db.sessions) ∨
        (2 ≤ Fate.landed fates ∧ ∀ s ∈ db.sessions.rows, s.user_id = user_id →
          s.revoked_at = none →
          ∃ s' ∈ db'.sessions.rows, s'.id = s.id ∧ s'.revoked_at ≠ none)) := by
  rw [IdentityService.revoke_sessions, Script.bind_assoc] at h
  rcases Store.of_faulty_query_bind h with ⟨rfl, -, rfl⟩ | ⟨x, rest, rfl, -, rfl⟩ |
    ⟨c, rest, ⟨now, ids⟩, db₁, rfl, hrun, hrest⟩ | ⟨c, rest, x, rfl, hrun, -⟩
  · exact ⟨⟨rfl, rfl, rfl, rfl⟩, .inl ⟨by simp, rfl⟩⟩
  · exact ⟨⟨rfl, rfl, rfl, rfl⟩, .inl ⟨by simp, rfl⟩⟩
  · cases hrun
    rcases Store.of_faulty_query_bind hrest with ⟨rfl, -, rfl⟩ | ⟨x, rest, rfl, -, rfl⟩ |
      ⟨c, rest, n, db₂, rfl, hrun, hrest⟩ | ⟨c, rest, x, rfl, hrun, -⟩
    · exact ⟨⟨rfl, rfl, rfl, rfl⟩, .inl ⟨by simp, rfl⟩⟩
    · exact ⟨⟨rfl, rfl, rfl, rfl⟩, .inl ⟨by simp, rfl⟩⟩
    · simp only [store, Stmt.run, SessionStmt.run] at hrun
      split at hrun <;> cases hrun
      obtain ⟨hafter, hsessions⟩ := afterUpdate_of_find hrest
      refine ⟨⟨hafter.users, hafter.one_time_tokens, hafter.issued, hafter.clock⟩, .inr ⟨?_, ?_⟩⟩
      · simp
      · intro s hs huser hactive
        rw [hsessions]
        have hid : s.id ∈ (db.sessions.rows.filter fun s =>
            s.user_id == user_id && some s.id != none && s.revoked_at.isNone).map (·.id) := by
          refine List.mem_map_of_mem (List.mem_filter.mpr ⟨hs, ?_⟩)
          simp [huser, hactive]
        exact ⟨_, Database.mem_revokeSessions hs (decide_eq_true hid) hactive, rfl,
          Option.some_ne_none _⟩
    · simp only [store, Stmt.run, SessionStmt.run] at hrun
      split at hrun <;> cases hrun
  · cases hrun

/-- **A reset is all or nothing** exactly if it does not come to a stop between the consumption of
its link and the revocation of the sessions, or has no session to revoke. -/
theorem resetAtomic_iff {d : Deployment} {token : SecretToken}
    {fates : List (Fate Failure Choice)} {y : Option (Except IdentityError Unit)}
    (ht : ResetsWith d.platform new_password t db) (htoken : hash_secret_token token = t.token_hash)
    (h : (store d.platform).faulty p
      (IdentityService.reset_password d token new_password) fates db =
      some (y, db')) :
    ResetAtomic d.platform new_password t db db' ↔ ResetLands t db fates := by
  rw [IdentityService.reset_password, htoken] at h
  rcases Store.of_faulty_query_bind h with ⟨rfl, -, rfl⟩ | ⟨x, rest, rfl, -, rfl⟩ |
    ⟨c, rest, found, db₁, rfl, hrun, hrest⟩ | ⟨c, rest, x, rfl, hrun, -⟩
  · refine iff_of_true (.inl ⟨⟨t, ht.mem, rfl, ht.purpose, ht.live⟩, fun u hu _ => hu, rfl⟩) ?_
    exact .inl rfl
  · refine iff_of_true (.inl ⟨⟨t, ht.mem, rfl, ht.purpose, ht.live⟩, fun u hu _ => hu, rfl⟩) ?_
    exact .inl rfl
  · obtain ⟨hfound, hgone, husers, hsessions, hissued⟩ := ht.run_consume hrun
    cases hfound
    -- From here on only the second half can come true.
    have hundone : ∀ {db'}, db'.one_time_tokens = db₁.one_time_tokens → db'.clock = db₁.clock →
        ¬ ResetUndone t db db' := by
      rintro db' htokens hclock ⟨hredeemable, -⟩
      refine hgone ?_
      rwa [Redeemable, htokens, hclock] at hredeemable
    have hstuck : ∀ {fates : List (Fate Failure Choice)}, Fate.landed fates < 2 →
        ¬ ResetLands t db (.run c :: fates) := by
      rintro fates hlt (h0 | h5 | ⟨h3, -⟩)
      · simp at h0
      · simp at h5
        omega
      · simp at h3
        omega
    have hnot : ∀ {db'}, db'.users = db₁.users → db'.one_time_tokens = db₁.one_time_tokens →
        db'.clock = db₁.clock → ¬ ResetAtomic d.platform new_password t db db' := by
      rintro db' husers' htokens hclock (hundo | hdone)
      · exact hundone htokens hclock hundo
      · exact ht.not_done (husers'.trans husers) hdone
    dsimp only at hrest
    rw [IdentityService.hash, Script.bind_assoc] at hrest
    rcases Store.of_faulty_query_bind hrest with ⟨rfl, -, rfl⟩ | ⟨x, rest, rfl, -, rfl⟩ |
      ⟨c₁, rest, salt, db₂, rfl, hrun₁, hrest₁⟩ | ⟨c₁, rest, x, rfl, hrun₁, -⟩
    · exact iff_of_false (hnot rfl rfl rfl) (hstuck (by simp))
    · exact iff_of_false (hnot rfl rfl rfl) (hstuck (by simp))
    · simp only [store, Stmt.run] at hrun₁
      split at hrun₁ <;> cases hrun₁
      next hunused =>
      have hnew : c₁.id ∉ db.issued := by
        rw [← hissued]
        exact of_decide_eq_true hunused
      have husers₂ : (db₁.issue c₁.id).users = db.users := husers
      rcases Store.of_faulty_query_bind hrest₁ with ⟨rfl, -, rfl⟩ | ⟨x, rest, rfl, -, rfl⟩ |
        ⟨c₂, rest, u, db₃, rfl, hrun₂, hrest₂⟩ | ⟨c₂, rest, x, rfl, hrun₂, -⟩
      · exact iff_of_false (hnot rfl rfl rfl) (hstuck (by simp))
      · exact iff_of_false (hnot rfl rfl rfl) (hstuck (by simp))
      · obtain ⟨-, hstored, htokens, hsessions₃, hissued₃, hclock⟩ :=
          ht.run_update husers₂ hrun₂
        obtain ⟨hafter, hlands⟩ := revocation_lands hrest₂
        have hhash : ∃ u ∈ db'.users.rows, u.id = t.user_id ∧ ∃ salt ∈ db'.issued,
            salt ∉ db.issued ∧ u.password_hash = d.platform.argon2_hash new_password salt := by
          obtain ⟨u, hu, hid, hstored⟩ := hstored
          refine ⟨u, by rwa [hafter.users], hid, c₁.id, ?_, hnew, hstored⟩
          rw [hafter.issued, hissued₃]
          exact List.mem_cons_self
        have hiff : ResetAtomic d.platform new_password t db db' ↔
            ResetDone d.platform new_password t db db' := by
          refine or_iff_right (hundone ?_ ?_)
          · exact hafter.one_time_tokens.trans htokens
          · exact hafter.clock.trans hclock
        rw [hiff]
        rcases hlands with ⟨hlt, hkept⟩ | ⟨hle, hrevoked⟩
        · rw [resetDone_iff_of_sessions (hkept.trans (hsessions₃.trans hsessions)) hhash]
          constructor
          · intro hnone
            exact .inr (.inr ⟨by simp, hnone⟩)
          · rintro (h0 | h5 | ⟨-, hnone⟩)
            · simp at h0
            · simp at h5
              omega
            · exact hnone
        · refine iff_of_true ⟨hhash, fun s hs huser hactive => ?_⟩ (.inr (.inl ?_))
          · have hkept : db₃.sessions = db.sessions := hsessions₃.trans hsessions
            rw [← hkept] at hs
            exact hrevoked s hs huser hactive.1
          · simp
            omega
      · cases (ht.run_update husers₂ hrun₂).1
    · simp only [store, Stmt.run] at hrun₁
      split at hrun₁ <;> cases hrun₁
  · cases (ht.run_consume hrun).1

end Reset

/-! ### The revocation fails -/

instance (s : SessionRecord) (clock : Timestamp) : Decidable (s.Active clock) :=
  inferInstanceAs (Decidable (_ ∧ _))

instance (hash : TokenHash) (db : Database) : Decidable (Redeemable hash db) :=
  inferInstanceAs (Decidable (∃ t ∈ db.one_time_tokens.rows, t.token_hash = hash ∧
    t.purpose = .password_reset ∧ t.Live db.clock))

instance (t : OneTimeToken) (db : Database) (fates : List (Fate Failure Choice)) :
    Decidable (ResetLands t db fates) :=
  inferInstanceAs (Decidable (_ ∨ _ ∨ _))

/-- A link to reset the password of account 8. -/
def OneTimeToken.sample : OneTimeToken where
  id := 7
  user_id := 8
  purpose := .password_reset
  token_hash := ⟨⟨5⟩⟩
  created_at := 0
  expires_at := seconds 3600
  consumed_at := none

/-- Account 8, which is signed in, has asked for it. -/
def resetRequested : Database :=
  { Database.sample with one_time_tokens := Table.empty.insertNew .sample }

/-- The database is fit for a reset with the link. -/
theorem resetsWith_sample : ResetsWith .sample "new" .sample resetRequested where
  mem := by decide
  purpose := rfl
  live := by decide
  unique := by decide
  account := by decide
  salted := by
    intro u hu hid salt _ heq
    have hsecret : u.password_hash = Platform.sample.argon2_hash "secret" 0 := by
      clear heq hid
      revert u
      decide +kernel
    have hverifies := (argon2Exact_sample "secret" 0 "secret").mpr rfl
    rw [← hsecret, heq, argon2Exact_sample "new" salt "secret"] at hverifies
    simp at hverifies

/-- **The password is changed and the old sessions live on**: the statement after the update
fails. -/
theorem not_resetAtomic : ¬ ∀ fates y db', (store .sample).faulty 0
    (IdentityService.reset_password .sample ⟨5⟩ "new") fates resetRequested = some (y, db') →
      ResetAtomic .sample "new" .sample resetRequested db' := by
  intro hall
  have hatomic := hall [.run {}, .run { id := 40 }, .run {}, .fail .unavailable] _ _ rfl
  rcases hatomic with ⟨hredeemable, -⟩ | ⟨-, hrevoked⟩
  · revert hredeemable
    decide +kernel
  · revert hrevoked
    decide +kernel

/-- Every statement of a reset takes effect. -/
def uninterrupted : List (Fate Failure Choice) :=
  [.run {}, .run { id := 40 }, .run {}, .run {}, .run {}, .run {}]

/-- The hash is stored, and the session is revoked. -/
theorem resetAtomic_uninterrupted : ∃ y db', (store .sample).faulty 0
    (IdentityService.reset_password .sample ⟨5⟩ "new") uninterrupted resetRequested =
      some (y, db') ∧ ResetAtomic .sample "new" .sample resetRequested db' := by
  have hsome : ((store .sample).faulty 0 (IdentityService.reset_password .sample ⟨5⟩ "new")
      uninterrupted resetRequested).isSome = true := by decide +kernel
  obtain ⟨⟨y, db'⟩, hrun⟩ := Option.isSome_iff_exists.mp hsome
  exact ⟨y, db', hrun, (resetAtomic_iff (d := .sample) resetsWith_sample rfl hrun).mpr (by decide)⟩

end SubmitSnap
