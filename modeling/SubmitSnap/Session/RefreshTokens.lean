import SubmitSnap.Session.Transactions

/-!
# Refresh tokens

The tokens of a session form one chain, one of them is unused, and each works once. A used one that
is shown costs the session. A session that has ended is never found active again, and its tokens are
never exchanged: a refresh holds the session's row while it works, so a revocation comes before or
after it. An expiry does not wait: a refresh that has looked at the clock in time may commit after
the session has expired.

## The argument

Three facts about a session in the database make one chain, one unused token and one winner, and
each is preserved by every commit that can touch the session. A commit that exchanges a token
writes the replacement, marks the token as used and names the replacement in it, all at once;
before that the process has locked the token and found it unused, and it holds the lock until the
commit. So no two commits use one token, and the unused token is always the last of the chain.

Between two states the argument is about the row of the session: nothing removes a revocation and
nothing moves an expiry (`SessionRecord.Becomes`). A refresh holds the row of the session from the
look at the token on, so a revocation cannot come in between. The clock needs no lock to move on,
which is why the last clause about expired sessions speaks of looks at the clock and not of
commits.

## Main results

* `refreshTokensSound_of_reaches` — what holds in every run.
* `not_expiredRefused` — a refresh that commits late.
-/

namespace SubmitSnap

open Interleave

/-- The session has been revoked or has expired. -/
def Database.SessionOver (db : Database) (session_id : Uuid) : Prop :=
  ∃ row ∈ db.sessions.rows, row.id = session_id ∧
    (row.revoked_at ≠ none ∨ row.expires_at ≤ db.clock)

/-- The session is found active. -/
def FindsActive (session_id : Uuid) : Event → Prop
  | ⟨_, _, _, .sessions (.is_active id _), .ok active⟩ => id = session_id ∧ active = true
  | _ => False

/-- What holds of tokens at any time. -/
structure TokensSound (w : World) : Prop where
  /-- The tokens of a session replaced each other, one by one. -/
  one_chain : ∀ row ∈ w.shared.db.sessions.rows,
    ∃ ts, ts.Perm (w.shared.db.tokens_of row.id) ∧ IsChain ts
  one_unused : ∀ row ∈ w.shared.db.sessions.rows, ∃ t ∈ w.shared.db.tokens_of row.id,
    t.used_at = none ∧ ∀ t' ∈ w.shared.db.tokens_of row.id, t'.used_at = none → t' = t
  /-- What replaces a token does not outlive the session. -/
  within : ∀ row ∈ w.shared.db.sessions.rows, ∀ t ∈ w.shared.db.tokens_of row.id,
    ∀ t' ∈ w.shared.db.session_tokens.rows, t.replaced_by = some t'.id →
      t'.expires_at ≤ row.expires_at
  /-- Of all exchanges of one token one is committed. -/
  once : Throughout (fun e earlier => ∀ token, Redeems token e → ∀ e' ∈ earlier,
    ¬ Redeems token e') w.shared.log
  one_winner : ∀ p p' token answer answer', w.Returned p (.refresh token) answer →
    w.Returned p' (.refresh token) answer' → p = p'
  /-- A refresh that was shown a used token has revoked the session when it ends, unless one of its
  statements has failed. -/
  reuse_revokes : ∀ p token code, w.procs p = some ⟨.refresh token, code⟩ → w.endedAt p = true →
    ∀ e ∈ w.shared.log, e.pid = p → ∀ session_id, ShowsUsed session_id e →
      w.shared.db.Revoked session_id ∨ HasFailed p w.shared.log

/-- What holds of a session in `s` that was there in `s₀`. -/
structure SessionsEnd (s₀ s : State) : Prop where
  expiry_kept : ∀ row ∈ s₀.db.sessions.rows, ∃ row' ∈ s.db.sessions.rows,
    row'.id = row.id ∧ row'.expires_at = row.expires_at
  inactive : ∀ id, s₀.db.SessionOver id → ∀ e ∈ s.since s₀, ¬ FindsActive id e
  /-- No token of a revoked session is exchanged. -/
  revoked : ∀ id, s₀.db.Revoked id → ∀ e ∈ s.since s₀, ¬ RotatesSession id e
  /-- No token of an expired one is, by a refresh that looks at the clock after the expiry. -/
  expired : ∀ id, s₀.db.SessionOver id → Throughout (fun e earlier => RotatesSession id e →
    ∀ e' ∈ earlier, e'.pid = e.pid → ¬ LooksAtClock e') (s.since s₀)

/-- No token of an expired session is exchanged. -/
def ExpiredRefused (s₀ s : State) : Prop :=
  ∀ id, s₀.db.SessionOver id → ∀ e ∈ s.since s₀, ¬ RotatesSession id e

section Sound

variable {P : Platform} {G : Regime} {p : ℕ} {r : Request} {q : Stmt} {x : Except Failure q.Reply}
  {s₀ s s' : State} {db₀ : Database} {id : Uuid}

/-- What has been there since `s₀`. The clauses about sessions that have ended are about the
events since then, so the invariant carries along that the log has only grown and the clock has
only advanced, and that the rows of old sessions are where they were. Each event is judged at the
time it happens: that is enough, as what is over stays over. -/
structure LaterInv (s₀ s : State) : Prop extends SessionsEnd s₀ s where
  grows : s.log = s.since s₀ ++ s₀.log
  clock : s₀.db.clock ≤ s.db.clock
  timely : ∀ e ∈ s.since s₀, s₀.db.clock ≤ e.before.clock
  kept : ∀ row ∈ s₀.db.sessions.rows, ∃ row' ∈ s.db.sessions.rows, row.Becomes row'

theorem LaterInv.refl (s : State) : LaterInv s s := by
  have hnone : s.since s = [] := Shared.since_eq rfl
  refine ⟨⟨fun row hrow => ⟨row, hrow, rfl, rfl⟩, ?_, ?_, ?_⟩, ?_, le_rfl, ?_,
    fun row hrow => ⟨row, hrow, .refl row⟩⟩ <;> rw [hnone]
  · exact fun _ _ e he => absurd he List.not_mem_nil
  · exact fun _ _ e he => absurd he List.not_mem_nil
  · exact fun _ _ => throughout_nil
  · rfl
  · exact fun e he => absurd he List.not_mem_nil

/-- The row of a session that was over is over still. -/
theorem LaterInv.over (h : LaterInv s₀ s) (hover : s₀.db.SessionOver id) {row : SessionRecord}
    (hrow : row ∈ s.db.sessions.rows) (hid : row.id = id) :
    row.revoked_at ≠ none ∨ row.expires_at ≤ s₀.db.clock := by
  obtain ⟨row₀, hrow₀, rfl, hover⟩ := hover
  obtain ⟨row', hrow', hbecomes⟩ := h.kept row₀ hrow₀
  obtain rfl := s.db.sessions.eq_of_key_eq hrow hrow' (hid.trans hbecomes.id.symm)
  rw [hbecomes.expires_at]
  exact hover.imp_left hbecomes.revoked_at

/-- A session that is over is not found active. -/
theorem LaterInv.not_findsActive (h : LaterInv s₀ s) (hover : s₀.db.SessionOver id)
    (hx : G.Effect (store P) p r q s x s') : ¬ FindsActive id ⟨p, r, s.db, q, x⟩ := by
  intro hfinds
  unfold FindsActive at hfinds
  split at hfinds
  · next heq =>
    cases heq
    obtain ⟨rfl, rfl⟩ := hfinds
    obtain ⟨-, c, db, hrun, -⟩ := hx.of_ok
    simp only [store, Stmt.run, SessionStmt.run, Option.some.injEq, Prod.mk.injEq, Except.ok.injEq,
      List.any_eq_true, Bool.and_eq_true, beq_iff_eq, decide_eq_true_eq] at hrun
    obtain ⟨-, row, hrow, ⟨⟨hid, -⟩, hactive⟩, hlive⟩ := hrun
    rcases h.over hover hrow hid with hrevoked | hexpired
    · exact hrevoked (Option.isNone_iff_eq_none.mp hactive)
    · exact absurd (hexpired.trans h.clock) (Nat.not_le_of_lt hlive)
  · exact hfinds

/-- The session whose token is exchanged is locked, active, and was alive when `p` looked. -/
theorem rotates_of_move {db' : Database} (h : SessionMove p r s db' q x)
    (hrotates : RotatesSession id ⟨p, r, s.db, q, x⟩) :
    ∃ token t sess, sess.id = id ∧ Exchangeable p r s token t sess := by
  unfold RotatesSession at hrotates
  split at hrotates
  · next heq =>
    cases heq
    cases h with
    | idle hquiet _ => exact absurd trivial hquiet
    | revoke hquiet _ _ _ => exact absurd trivial hquiet
    | create _ _ _ => cases hrotates
    | rotate h _ _ => exact ⟨_, _, _, (List.mem_singleton.mp hrotates).symm, h.toExchangeable⟩
  · exact hrotates.elim
/-- Whatever statement comes next, it does not bring back a session that has ended: an exchange
has the row of its session locked and has found it active, and by what was kept that is the row
which was revoked or expired in `s₀`, if it was. The clause about expiry asks for a look at the
clock since then, which is what makes the exchange timely. -/
theorem LaterInv.effect (hpre : SessionPre p r s q) (h : LaterInv s₀ s)
    (hx : G.Effect (store P) p r q s x s') : LaterInv s₀ s' := by
  have hmove := sessionMove_of_effect hpre hx
  have hsince : s'.since s₀ = ⟨p, r, s.db, q, x⟩ :: s.since s₀ := by
    refine Shared.since_eq ?_
    rw [hx.log_eq, h.grows]
    rfl
  have hkept : ∀ row ∈ s₀.db.sessions.rows, ∃ row' ∈ s'.db.sessions.rows, row.Becomes row' := by
    intro row hrow
    obtain ⟨row₁, hrow₁, hbecomes₁⟩ := h.kept row hrow
    obtain ⟨row', hrow', hbecomes'⟩ := hmove.sessions_kept row₁ hrow₁
    exact ⟨row', hrow', hbecomes₁.trans hbecomes'⟩
  refine ⟨⟨fun row hrow => ?_, fun id hover => ?_, fun id hrevoked => ?_, fun id hover => ?_⟩,
    ?_, ?_,
    ?_, hkept⟩
  · obtain ⟨row', hrow', hbecomes⟩ := hkept row hrow
    exact ⟨row', hrow', hbecomes.id, hbecomes.expires_at⟩
  · rw [hsince]
    exact List.forall_mem_cons.mpr ⟨h.not_findsActive hover hx, h.inactive id hover⟩
  · rw [hsince]
    refine List.forall_mem_cons.mpr ⟨fun hrotates => ?_, h.revoked id hrevoked⟩
    obtain ⟨token, t, sess, rfl, hexchange⟩ := rotates_of_move hmove hrotates
    obtain ⟨row₀, hrow₀, hid, hne⟩ := hrevoked
    obtain ⟨row', hrow', hbecomes⟩ := h.kept row₀ hrow₀
    have hsame : row' = sess :=
      s.db.sessions.eq_of_key_eq hrow' hexchange.mem_session (hbecomes.id.trans hid)
    exact hbecomes.revoked_at hne (hsame ▸ hexchange.active)
  · rw [hsince]
    refine ⟨fun hrotates e' he' hp hlooks => ?_, h.expired id hover⟩
    obtain ⟨token, t, sess, hid, hexchange⟩ := rotates_of_move hmove hrotates
    have hmem : e' ∈ s.log := h.grows ▸ List.mem_append_left _ he'
    rcases h.over hover hexchange.mem_session hid with hrevoked | hexpired
    · exact hrevoked hexchange.active
    · exact absurd (hexpired.trans (h.timely e' he'))
        (Nat.not_le_of_lt (hexchange.timely e' hmem hp hlooks))
  · rw [hsince, hx.log_eq, List.cons_append, ← h.grows]
  · rw [clock_of_effect hx]
    exact h.clock
  · rw [hsince]
    exact List.forall_mem_cons.mpr ⟨h.clock, h.timely⟩

end Sound

section Runs

variable {d : Deployment} {G : Regime} {db : Database} {w w' : World}

/-- What a run of these requests may count on at its end. -/
abbrev SafeSessions (d : Deployment) (G : Regime) (db : Database) (w : World) : Prop :=
  (sessionLogic d.platform G db).Safe
    (fun p r y s => ∀ token, r = .refresh token → RefreshEnds p token y.isOk s) w

theorem SafeSessions.sound (h : SafeSessions d G db w) : TokensSound w where
  one_chain := h.inv.chained
  one_unused row hrow := by
    obtain ⟨ts, hperm, hchain⟩ := h.inv.chained row hrow
    obtain ⟨t, ht, hunused, hunique⟩ := hchain.exists_unique
    exact ⟨t, hperm.mem_iff.mp ht, hunused, fun t' ht' => hunique t' (hperm.mem_iff.mpr ht')⟩
  within := h.inv.within
  once := h.inv.once
  one_winner p p' token answer answer' hp hp' := by
    obtain ⟨e, he, rfl, hr⟩ := (h.of_returned hp token rfl).redeems rfl
    obtain ⟨e', he', rfl, hr'⟩ := (h.of_returned hp' token rfl).redeems rfl
    have honce : Throughout (fun e earlier => Redeems token e → ∀ e' ∈ earlier, ¬ Redeems token e')
        w.shared.log := by
      refine throughout_iff.mpr fun later e earlier heq hr => ?_
      exact throughout_iff.mp h.inv.once later e earlier heq token hr
    rw [honce.eq_of_mem he he' hr hr']
  reuse_revokes p token code hp hended e he hpid id hshows := by
    simp only [World.endedAt, hp] at hended
    rcases code with _ | code
    · cases hended
    · cases code with
      | call q k => cases hended
      | ret answer =>
        exact (h.code p _ _ hp w.shared (.refl h.inv) token rfl).revokes e he hpid id hshows
      | throw error =>
        exact (h.code p _ _ hp w.shared (.refl h.inv) token rfl).revokes e he hpid id hshows

end Runs

/-- **Refresh tokens are sound**: at any time of any run, and between any two. -/
theorem refreshTokensSound_of_reaches {d : Deployment} {db : Database} {w w' : World}
    (htables : SessionTables db) (hlocks : db.locks.Exclusive)
    (hissued : ∀ n, oldSessionName db n → n ∈ db.issued)
    (h : Reaches d (Regime.free Request.handlesSessions) (World.start db) w)
    (h' : Reaches d (Regime.free Request.handlesSessions) w w') :
    TokensSound w ∧ SessionsEnd w.shared w'.shared := by
  have hspec : ∀ p r s, Request.handlesSessions r →
      (sessionLogic d.platform (Regime.free Request.handlesSessions) db).inv s →
      (∀ e ∈ s.log, e.pid ≠ p) →
      (sessionLogic d.platform (Regime.free Request.handlesSessions) db).wp p r (Request.code d r)
        (fun y s => ∀ token, r = .refresh token → RefreshEnds p token y.isOk s) s :=
    fun _ _ _ hr hs hfresh => wp_handlesSessions hr hs hfresh
  have hsafe : SafeSessions d (Regime.free Request.handlesSessions) db w :=
    Logic.safe_of_reaches hspec (.start (SessionInv.start htables hlocks hissued)) h
  have hlater : LaterInv w.shared w'.shared :=
    Logic.inv_of_reaches hspec hsafe (I := LaterInv w.shared) (.refl w.shared)
      (fun _ hpre hI hx => hI.effect hpre hx) (fun _ hI => { hI with })
      (fun hI => { hI with clock := hI.clock.trans (Nat.le_add_right _ _) }) h'
  exact ⟨hsafe.sound, hlater.toSessionsEnd⟩

/-! ### A refresh that commits late -/

instance (id : Uuid) : DecidablePred (RotatesSession id) := fun ⟨_, _, _, q, reply⟩ => by
  induction q using Stmt.casesOn with
  | commit => induction reply using Except.casesOn <;> (delta RotatesSession; infer_instance)
  | _ => delta RotatesSession; infer_instance

instance (db : Database) (id : Uuid) : Decidable (db.SessionOver id) :=
  inferInstanceAs (Decidable (∃ row ∈ db.sessions.rows, row.id = id ∧
    (row.revoked_at ≠ none ∨ row.expires_at ≤ db.clock)))

instance (db : Database) (id : Uuid) : Decidable (db.Revoked id) :=
  inferInstanceAs (Decidable (∃ row ∈ db.sessions.rows, row.id = id ∧ row.revoked_at ≠ none))

instance : DecidablePred Request.handlesSessions := fun r => by
  induction r using Request.casesOn with
  | administer op =>
    induction op using AdminOp.casesOn <;> (delta Request.handlesSessions; infer_instance)
  | _ => delta Request.handlesSessions; infer_instance

/-- The sample database, without its sessions. -/
def Database.signedOut : Database := { Database.sample with sessions := .empty }

/-- Account 8 is given session 41, with the token 40. -/
def signedIn : List Step :=
  [.spawn 0 (.open_session 8 ⟨none, none⟩), .step 0 { id := 40 }, .step 0 {}, .step 0 {},
    .step 0 {},
    .step 0 { id := 41 }, .step 0 { id := 42 }, .step 0 {}, .step 0 {}, .step 0 {}]

/-- A refresh has looked at the clock when the session expires. -/
def refreshedLate : List Step :=
  signedIn ++ [.spawn 1 (.refresh ⟨40⟩), .step 1 { id := 43 }, .step 1 {}, .step 1 {}, .step 1 {},
    .step 1 {}, .pass (seconds 2592000)]

/-- **An exchange after the expiry**: the look at the clock comes before it, the commit after. -/
theorem not_expiredRefused : ¬ ∀ w w', Reaches .sample (Regime.free Request.handlesSessions)
    (World.start .signedOut) w → Reaches .sample (Regime.free Request.handlesSessions) w w' →
      ExpiredRefused w.shared w'.shared := by
  intro hall
  have hrefused := hall _ _
    (Deployment.sample.reaches_play (Regime.free Request.handlesSessions) refreshedLate .signedOut)
    (Regime.reaches_play (Regime.free Request.handlesSessions)
      [.step 1 { id := 44 }, .step 1 {}, .step 1 {}, .step 1 {}] _) 41
  revert hrefused
  decide +kernel

/-- A token is exchanged, and shown once more. -/
def refreshedTwice : List Step :=
  signedIn ++ [.spawn 1 (.refresh ⟨40⟩), .step 1 { id := 43 }, .step 1 {}, .step 1 {}, .step 1 {},
    .step 1 {}, .step 1 { id := 44 }, .step 1 {}, .step 1 {}, .step 1 {}, .step 1 {}, .step 1 {},
    .step 1 {}, .step 1 {}, .spawn 2 (.refresh ⟨40⟩), .step 2 { id := 45 }, .step 2 {}, .step 2 {},
    .step 2 {}, .step 2 {}, .step 2 {}]

/-- The second time costs the session, and the new token is refused. -/
theorem refreshTokensSound_refreshedTwice :
    let w := Deployment.sample.play (Regime.free Request.handlesSessions) refreshedTwice .signedOut
    let w' := play (Regime.free Request.handlesSessions) (store Platform.sample)
      (Request.code .sample) [.spawn 3 (.refresh ⟨43⟩), .step 3 { id := 46 }, .step 3 {},
        .step 3 {},
        .step 3 {}, .step 3 {}, .step 3 {}] w
    (w.shared.db.tokens_of 41).length = 2 ∧ w.shared.db.Revoked 41 ∧ w'.endedAt 3 = true ∧
      TokensSound w ∧ SessionsEnd w.shared w'.shared := by
  refine ⟨by decide +kernel, by decide +kernel, by decide +kernel, ?_⟩
  refine @refreshTokensSound_of_reaches .sample .signedOut _ _ ⟨?_, ?_, ?_, ?_⟩
    Locks.exclusive_nil ?_
    (Deployment.sample.reaches_play (Regime.free Request.handlesSessions) refreshedTwice .signedOut)
    (Regime.reaches_play _ _ _)
  · exact fun t ht => absurd ht List.not_mem_nil
  · exact fun t ht => absurd ht List.not_mem_nil
  · exact fun row hrow => absurd hrow List.not_mem_nil
  · exact fun row hrow => absurd hrow List.not_mem_nil
  · rintro n (⟨row, hrow, -⟩ | ⟨t, ht, -⟩)
    · exact absurd hrow List.not_mem_nil
    · exact absurd ht List.not_mem_nil

end SubmitSnap
