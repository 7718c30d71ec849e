import SubmitSnap.Footprints
import SubmitSnap.Interleave.Fresh

/-!
# Single-use links

A link is redeemed by one `UPDATE` that looks and marks in one step, so it works once, and what is
consumed or expired stays so. That a new link supersedes the older ones is not as safe: issuing
consumes the links of a snapshot and inserts its own at the commit, and a link that somebody else
commits in between is in nobody's snapshot. Both then stand.

## The argument

A link goes from live to dead and never back: consumption is final, the clock does not go back,
and no other link is committed under its hash. The last of these is the discipline of names again,
since the hash belongs to a token that was generated and is given to one request. So "dead" may be
said of a hash, and is stable. Everything that is claimed of a single link follows: its redemption
finds it live and leaves it dead, hence there is no second one.

That there is one live link at a time is a claim about pairs, and it is here that the order of
statements matters. Issuing has three steps: look for the unconsumed links, lock those that were
seen and keep the ones still unconsumed, commit their consumption together with the new link. Any
other link is then in one of three places. It was seen, and is consumed or was already. It was
committed before the look and not seen, so it was not unconsumed then, and is dead. Or it was
committed after the look. Only the last can leave two live links, and `overlooks` is exactly that
case, said of the state in front of the commit.

## Main results

* `linksSound_of_reaches` — every link works once, and no account has two live ones of a kind, in
  every run in which no link is issued over one that was committed since its invalidation looked.
* `not_linksSound` — two requests for a reset that overlap.
-/

namespace SubmitSnap

open Interleave

/-! ### Links -/

/-- The link can be redeemed. -/
def OneTimeToken.Live (t : OneTimeToken) (clock : Timestamp) : Prop :=
  t.consumed_at = none ∧ clock < t.expires_at

/-- Two links of one account and one kind. -/
def OneTimeToken.Rivals (t t' : OneTimeToken) : Prop :=
  t.user_id = t'.user_id ∧ t.purpose = t'.purpose

/-- No link with this hash can be redeemed. -/
def Dead (hash : TokenHash) (db : Database) : Prop :=
  ∀ t ∈ db.one_time_tokens.rows, t.token_hash = hash → ¬ t.Live db.clock

/-- No account has two live links of a kind. -/
def OneLive (db : Database) : Prop :=
  ∀ t ∈ db.one_time_tokens.rows, ∀ t' ∈ db.one_time_tokens.rows, t.Rivals t' →
    t.Live db.clock → t'.Live db.clock → t = t'

/-- A link with this hash is redeemed. -/
def redeems (hash : TokenHash) : Event → Prop
  | ⟨_, _, _, .one_time_tokens (.consume hash' _), .ok (some _)⟩ => hash' = hash
  | _ => False

/-- The link a write inserts. -/
def Write.link : Write → Option OneTimeToken
  | one_time_token row => some row
  | _ => none

/-- The link is committed. -/
def commitsLink (row : OneTimeToken) : Event → Prop
  | ⟨_, _, _, .commit ws, .ok ()⟩ => row ∈ ws.filterMap Write.link
  | _ => False

/-- `p` looks for the links of an account that its own will supersede. -/
def looksForLinks (p : ℕ) : Event → Prop
  | ⟨p', _, _, .one_time_tokens (.outstanding _ _), _⟩ => p' = p
  | _ => False

/-- `p` commits a link of an account although another one of its kind, committed after `p` looked
for those it supersedes, is still live. -/
def overlooks (p : ℕ) (s : State) : Stmt → Prop
  | .commit ws => ∃ row ∈ ws.filterMap Write.link,
    ∃ t ∈ s.db.one_time_tokens.rows, t.Rivals row ∧ t.Live s.db.clock ∧
      Since (commitsLink t) (looksForLinks p) s.log
  | _ => False

/-- The requests that issue and redeem links. -/
def Request.handlesLinks : Request → Prop
  | request_password_reset _ | resend_verification _ | reset_password _ _ | verify_email _ => True
  | _ => False

/-- The runs in which no link is issued over one its invalidation could not see. -/
abbrev invalidationsSee : Regime :=
  (Regime.free Request.handlesLinks).avoiding fun p _ q s => overlooks p s q

/-- A link works once, and not after it was consumed or has expired; and there is one at a time. -/
structure LinksSound (s : State) : Prop where
  /-- Of all redemptions of one link one succeeds. -/
  once : Throughout (fun e earlier => ∀ hash, redeems hash e → ∀ e' ∈ earlier, ¬ redeems hash e')
    s.log
  /-- A link that is redeemed is live, and has been as long as it has existed. -/
  never : Throughout (fun e earlier => ∀ hash, redeems hash e → ∀ e' ∈ e :: earlier,
    ∀ t ∈ e'.before.one_time_tokens.rows, t.token_hash = hash → t.Live e'.before.clock) s.log
  one : OneLive s.db
  /-- A new link leaves those before it dead, for good. -/
  superseded : ∀ e ∈ s.log, ∀ row, commitsLink row e → ∀ t ∈ e.before.one_time_tokens.rows,
    t.Rivals row → Dead t.token_hash s.db

/-! ### What single statements do to the links -/

/-- `t'` is `t`, consumed or not. -/
def OneTimeToken.Becomes (t t' : OneTimeToken) : Prop :=
  t' = t ∨ ∃ now, t' = { t with consumed_at := some now }

namespace OneTimeToken

variable {t t' : OneTimeToken} {clock clock' : Timestamp}

theorem Becomes.refl (t : OneTimeToken) : t.Becomes t := .inl rfl

theorem Becomes.id_eq (h : t.Becomes t') : t'.id = t.id := by
  rcases h with rfl | ⟨now, rfl⟩ <;> rfl

theorem Becomes.hash_eq (h : t.Becomes t') : t'.token_hash = t.token_hash := by
  rcases h with rfl | ⟨now, rfl⟩ <;> rfl

/-- What is not consumed has not changed. -/
theorem Becomes.eq_of_unconsumed (h : t.Becomes t') (hunconsumed : t'.consumed_at = none) :
    t' = t := by
  rcases h with rfl | ⟨now, rfl⟩
  · rfl
  · cases hunconsumed

theorem Live.mono (h : t.Live clock') (hle : clock ≤ clock') : t.Live clock :=
  ⟨h.1, lt_of_le_of_lt hle h.2⟩

/-- An update that consumes some links. -/
theorem becomes_of_mem_updateWhere {table : Table OneTimeToken.id} {sel : OneTimeToken → Bool}
    {now : Timestamp}
    (h : t' ∈ table.rows.map fun t => if sel t then { t with consumed_at := some now } else t) :
    ∃ t ∈ table.rows, t.Becomes t' ∧ (sel t = true → t'.consumed_at = some now) := by
  obtain ⟨t, ht, ⟨hsel, rfl⟩ | ⟨hsel, rfl⟩⟩ := Table.of_mem_updateWhere h
  · exact ⟨t, ht, .inr ⟨now, rfl⟩, fun _ => rfl⟩
  · refine ⟨t', ht, .refl t', fun htrue => ?_⟩
    rw [hsel] at htrue
    cases htrue

end OneTimeToken

section Statements

variable {P : Platform} {p : ℕ} {c : Choice} {db db' : Database}

/-- Every link of `db'` is one of `db`, consumed or not. -/
def LinksFrom (db db' : Database) : Prop :=
  ∀ t' ∈ db'.one_time_tokens.rows, ∃ t ∈ db.one_time_tokens.rows, t.Becomes t'

theorem LinksFrom.of_eq (h : db'.one_time_tokens = db.one_time_tokens) : LinksFrom db db' := by
  intro t ht
  rw [h] at ht
  exact ⟨t, ht, .refl t⟩

/-- Statements that are not commits insert no link. -/
theorem Stmt.links_from {q : Stmt} {x : Except Failure q.Reply} (hq : ∀ ws, q ≠ .commit ws)
    (h : q.run P p c db = some (db', x)) : LinksFrom db db' := by
  cases hreach : Part.one_time_tokens.reachedBy q with
  | false => exact .of_eq (Stmt.footprint .one_time_tokens hreach h)
  | true =>
    cases q with
    | commit ws => exact absurd rfl (hq ws)
    | users q =>
      cases q with
      | delete_apply id =>
        simp only [Stmt.run, UserStmt.run] at h
        split at h <;> cases h
        exact fun t ht => ⟨t, (Table.mem_deleteWhere.mp ht).1, .refl t⟩
      | _ => cases hreach
    | one_time_tokens q =>
      cases q with
      | outstanding user_id purpose =>
        cases h
        exact .of_eq rfl
      | invalidate ids =>
        simp only [Stmt.run, OneTimeTokenStmt.run] at h
        split at h <;> cases h
        obtain ⟨ls, hls⟩ := Database.lockAll_eq p .noKeyUpdate (ids.map .one_time_token) db
        rw [hls]
        exact .of_eq rfl
      | issue _ _ _ _ _ =>
        simp only [Stmt.run, OneTimeTokenStmt.run] at h
        (repeat' split at h) <;> cases h <;> exact .of_eq rfl
      | consume token_hash purpose =>
        simp only [Stmt.run, OneTimeTokenStmt.run] at h
        (repeat' split at h) <;> cases h
        · exact .of_eq rfl
        · intro t' ht'
          obtain ⟨t, ht, hbecomes, -⟩ := OneTimeToken.becomes_of_mem_updateWhere ht'
          exact ⟨t, ht, hbecomes⟩
    | _ => cases hreach

/-- What a successful redemption finds and leaves. -/
theorem OneTimeTokenStmt.run_consume {token_hash : TokenHash} {purpose : OneTimeTokenPurpose}
    {user_id : Uuid}
    (h : (OneTimeTokenStmt.consume token_hash purpose).run p c db =
      some (db', .ok (some user_id))) :
    ∃ t ∈ db.one_time_tokens.rows, t.token_hash = token_hash ∧ t.Live db.clock ∧
      ∀ t' ∈ db'.one_time_tokens.rows, t'.id = t.id → t'.consumed_at ≠ none := by
  simp only [OneTimeTokenStmt.run] at h
  split at h
  · cases h
  · next t hfind =>
    split at h <;> cases h
    have hsel := List.find?_some hfind
    simp only [Bool.and_eq_true, beq_iff_eq, Option.isNone_iff_eq_none, decide_eq_true_eq] at hsel
    refine ⟨t, List.mem_of_find?_eq_some hfind, hsel.1.1.1, ⟨hsel.1.2, hsel.2⟩,
      fun t' ht' hid => ?_⟩
    obtain ⟨t₀, ht₀, hbecomes, hconsumed⟩ := OneTimeToken.becomes_of_mem_updateWhere ht'
    rw [hconsumed (beq_iff_eq.mpr (hbecomes.id_eq.symm.trans hid))]
    exact Option.some_ne_none _

/-- The links a commit leaves that consumes some and inserts one. -/
theorem Write.of_mem_issue {found : List Uuid} {now : Timestamp} {row t' : OneTimeToken}
    (h : t' ∈ (applyAll db [.consume_tokens found now, .one_time_token row]).one_time_tokens.rows) :
    (∃ t ∈ db.one_time_tokens.rows, t.Becomes t' ∧ (t.id ∈ found → t'.consumed_at = some now)) ∨
      t' = row := by
  simp only [applyAll_cons, applyAll_nil, apply] at h
  rcases Table.mem_insertNew.mp h with h | ⟨rfl, -⟩
  · left
    obtain ⟨t, ht, hbecomes, hconsumed⟩ := OneTimeToken.becomes_of_mem_updateWhere h
    exact ⟨t, ht, hbecomes, fun hid => hconsumed (decide_eq_true hid)⟩
  · exact .inr rfl

end Statements

/-! ### The life of a hash

A link is known by the hash of its token. The token is generated by one process and committed by
it, so what can be said of the hash follows the same stages as what is said of any name that is
drawn fresh. -/

/-- A hash is given with the token it is of, and used by the commit of its link. -/
def links : Naming Event TokenHash where
  gives p hash
    | ⟨p', _, _, .generate, .ok n⟩ => p' = p ∧ hash = hash_secret_token ⟨n⟩
    | _ => False
  uses p hash
    | ⟨p', _, _, .commit ws, .ok ()⟩ => p' = p ∧ ∃ row ∈ ws.filterMap Write.link,
      row.token_hash = hash
    | _ => False

/-- A link with this hash was there before the trace began. -/
def oldLink (db₀ : Database) (hash : TokenHash) : Prop :=
  ∃ t ∈ db₀.one_time_tokens.rows, t.token_hash = hash

/-- The token of this hash has been generated. -/
def Database.tokenIssued (db : Database) (hash : TokenHash) : Prop := hash.of.id ∈ db.issued

/-- `p` looks for the unconsumed links of an account and kind, and sees these. -/
def looked (p : ℕ) (user_id : Uuid) (purpose : OneTimeTokenPurpose) (ids : List Uuid) :
    Event → Prop
  | ⟨p', _, _, .one_time_tokens (.outstanding user_id' purpose'), .ok ids'⟩ =>
    p' = p ∧ user_id' = user_id ∧ purpose' = purpose ∧ ids' = ids
  | _ => False

/-- `p` locks the links it has seen, and finds these still unconsumed. -/
def foundLinks (p : ℕ) (ids found : List Uuid) : Event → Prop
  | ⟨p', _, _, .one_time_tokens (.invalidate ids'), .ok found'⟩ =>
    p' = p ∧ ids' = ids ∧ found' = found
  | _ => False

/-- What has to hold of a request when it executes a statement: a link is committed together with
the consumption of those the invalidation has found, under a hash of its own. What the
invalidation has looked at and found is on the trace, since nothing of it is in the state any more
once another request has moved on. -/
def LinkPre (p : ℕ) (s : State) : Stmt → Prop
  | .commit ws => ∃ found now row ids,
    ws = [.consume_tokens found now, .one_time_token row] ∧
    Since (looked p row.user_id row.purpose ids) (looksForLinks p) s.log ∧
    Since (foundLinks p ids found) (looksForLinks p) s.log ∧ links.Held p row.token_hash s.log
  | _ => True

/-- What holds of links in every run, and what it rests on. -/
structure LinkInv (db₀ : Database) (s : State) : Prop extends LinksSound s where
  /-- A token that is held has no link yet, so its commit puts the only one into the table. -/
  fresh : links.Fresh (oldLink db₀) s.db.tokenIssued s.log
  /-- Whatever link is there has used its hash: nobody holds it. -/
  used : ∀ t ∈ s.db.one_time_tokens.rows, links.Used (oldLink db₀) t.token_hash s.log
  unique : ∀ t ∈ s.db.one_time_tokens.rows, ∀ t' ∈ s.db.one_time_tokens.rows,
    t.token_hash = t'.token_hash → t = t'
  /-- What was dead once is dead. -/
  seen : ∀ e ∈ s.log, ∀ t ∈ e.before.one_time_tokens.rows,
    links.Used (oldLink db₀) t.token_hash s.log ∧
      (¬ t.Live e.before.clock → Dead t.token_hash s.db)
  /-- What was redeemed once cannot be redeemed again. -/
  spent : ∀ e ∈ s.log, ∀ hash, redeems hash e →
    links.Used (oldLink db₀) hash s.log ∧ Dead hash s.db
  /-- A link that was not seen by who looked was committed later. -/
  unseen : ∀ p user_id purpose ids, Since (looked p user_id purpose ids) (looksForLinks p) s.log →
    ∀ t ∈ s.db.one_time_tokens.rows, t.user_id = user_id → t.purpose = purpose →
      t.consumed_at = none → t.id ∈ ids ∨ Since (commitsLink t) (looksForLinks p) s.log
  unfound : ∀ p ids found, Since (foundLinks p ids found) (looksForLinks p) s.log →
    ∀ t ∈ s.db.one_time_tokens.rows, t.id ∈ ids → t.consumed_at = none →
      t.id ∈ found ∨ Since (commitsLink t) (looksForLinks p) s.log

section Effect

variable {P : Platform} {G : Regime} {p : ℕ} {r : Request} {q : Stmt} {x : Except Failure q.Reply}
  {s s' : State} {db₀ : Database}

/-- **Where a link comes from.** -/
theorem link_origin (hpre : LinkPre p s q) (h : G.Effect (store P) p r q s x s') {t' : OneTimeToken}
    (ht' : t' ∈ s'.db.one_time_tokens.rows) :
    (∃ t ∈ s.db.one_time_tokens.rows, t.Becomes t') ∨
      (commitsLink t' ⟨p, r, s.db, q, x⟩ ∧ links.Held p t'.token_hash s.log) := by
  cases h with
  | fail _ => exact .inl ⟨t', ht', .refl t'⟩
  | run _ hrun =>
    by_cases hq : ∃ ws, q = .commit ws
    · obtain ⟨ws, rfl⟩ := hq
      obtain ⟨found, now, row, ids, rfl, -, -, hheld⟩ := hpre
      cases hrun
      rcases Write.of_mem_issue ht' with ⟨t, ht, hbecomes, -⟩ | rfl
      · exact .inl ⟨t, ht, hbecomes⟩
      · exact .inr ⟨List.mem_singleton.mpr rfl, hheld⟩
    · exact .inl (Stmt.links_from (fun ws hws => hq ⟨ws, hws⟩) hrun t' ht')

/-- A link that is committed uses its hash. -/
theorem uses_of_commitsLink {row : OneTimeToken} (h : commitsLink row ⟨p, r, s.db, q, x⟩) :
    links.uses p row.token_hash ⟨p, r, s.db, q, x⟩ := by
  unfold commitsLink at h
  split at h
  · next heq =>
    cases heq
    exact ⟨rfl, row, h, rfl⟩
  · exact h.elim

/-- A commit inserts one link. -/
theorem commitsLink_unique (hpre : LinkPre p s q) {row row' : OneTimeToken}
    (h : commitsLink row ⟨p, r, s.db, q, x⟩) (h' : commitsLink row' ⟨p, r, s.db, q, x⟩) :
    row = row' := by
  unfold commitsLink at h h'
  split at h
  · next heq =>
    cases heq
    obtain ⟨found, now, row₀, ids, rfl, -⟩ := hpre
    rw [List.mem_singleton.mp h, List.mem_singleton.mp h']
  · exact h.elim

/-- The hashes stay fresh. -/
theorem fresh_links (hs : links.Fresh (oldLink db₀) s.db.tokenIssued s.log) (hpre : LinkPre p s q)
    (h : G.Effect (store P) p r q s x s') :
    links.Fresh (oldLink db₀) s'.db.tokenIssued s'.log := by
  have hmono : ∀ hash, s.db.tokenIssued hash → s'.db.tokenIssued hash := by
    intro hash hissued
    cases h with
    | fail _ => exact hissued
    | run _ hrun =>
      obtain ⟨n, hn⟩ := Stmt.issued_mono hrun
      rw [Shared.push_db, Database.tokenIssued, hn]
      exact List.mem_append_right n hissued
  rw [h.log_eq]
  refine hs.cons hmono (fun p' hash hgives => ?_) fun p' hash huses => ?_
  · cases h with
    | fail _ => cases q <;> exact hgives.elim
    | @run c _ _ _ hrun =>
      cases q with
      | generate =>
        simp only [store, Stmt.run] at hrun
        split at hrun <;> cases hrun
        next hunused =>
        have hnew : c.id ∉ s.db.issued := of_decide_eq_true hunused
        obtain ⟨rfl, rfl⟩ := hgives
        exact ⟨hnew, List.mem_cons_self, fun p₁ hgives₁ => hgives₁.1.symm⟩
      | _ => exact hgives.elim
  · cases q with
    | commit ws =>
      obtain ⟨found, now, row, ids, rfl, -, -, hheld⟩ := hpre
      cases x with
      | error e => exact huses.elim
      | ok u =>
        obtain ⟨rfl, row', hrow', rfl⟩ := huses
        rw [List.mem_singleton.mp hrow']
        exact hheld
    | _ => exact huses.elim

/-- **Dead links stay dead**: no statement revives one or commits another under its hash. A link
is alive if it has not been consumed and has not expired; nothing undoes either, and the hash of a
new link is that of a token that has just been generated. -/
theorem Dead.effect {hash : TokenHash}
    (hfresh : links.Fresh (oldLink db₀) s.db.tokenIssued s.log) (hpre : LinkPre p s q)
    (h : G.Effect (store P) p r q s x s') (hused : links.Used (oldLink db₀) hash s.log)
    (hdead : Dead hash s.db) : Dead hash s'.db := by
  intro t' ht' hhash hlive
  rw [clock_of_effect h] at hlive
  rcases link_origin hpre h ht' with ⟨t, ht, hbecomes⟩ | ⟨-, hheld⟩
  · obtain rfl := hbecomes.eq_of_unconsumed hlive.1
    exact hdead t' ht hhash hlive
  · rw [hhash] at hheld
    exact (hfresh.held p hash hheld).2 hused

/-- The only link of its hash is the one that was found. -/
theorem LinkInv.dead_of_not_live (hs : LinkInv db₀ s) {t : OneTimeToken}
    (ht : t ∈ s.db.one_time_tokens.rows)
    (hlive : ¬ t.Live s.db.clock) : Dead t.token_hash s.db := by
  intro t' ht' hhash
  rwa [hs.unique t' ht' t ht hhash]

/-- The statement that redeems a link finds it live, and leaves it consumed. -/
theorem redeemed_link (h : G.Effect (store P) p r q s x s') {hash : TokenHash}
    (hr : redeems hash ⟨p, r, s.db, q, x⟩) :
    ∃ t ∈ s.db.one_time_tokens.rows, t.token_hash = hash ∧ t.Live s.db.clock ∧
      ∀ t' ∈ s'.db.one_time_tokens.rows, t'.id = t.id → t'.consumed_at ≠ none := by
  unfold redeems at hr
  split at hr
  · next heq =>
    cases heq
    subst hr
    cases h with
    | @run c _ _ _ hrun => exact OneTimeTokenStmt.run_consume (c := c) hrun
  · exact hr.elim

theorem LinkInv.used_effect (hs : LinkInv db₀ s) (hpre : LinkPre p s q)
    (h : G.Effect (store P) p r q s x s') : ∀ t ∈ s'.db.one_time_tokens.rows,
    links.Used (oldLink db₀) t.token_hash s'.log := by
  intro t' ht'
  rw [h.log_eq]
  rcases link_origin hpre h ht' with ⟨t, ht, hbecomes⟩ | ⟨hcommits, -⟩
  · rw [hbecomes.hash_eq]
    exact (hs.used t ht).mono fun _ => List.mem_cons_of_mem _
  · exact Naming.used_cons.mpr (.inl ⟨p, uses_of_commitsLink hcommits⟩)

theorem LinkInv.unique_effect (hs : LinkInv db₀ s) (hpre : LinkPre p s q)
    (h : G.Effect (store P) p r q s x s') : ∀ t ∈ s'.db.one_time_tokens.rows,
    ∀ t' ∈ s'.db.one_time_tokens.rows, t.token_hash = t'.token_hash → t = t' := by
  intro t₁ ht₁ t₂ ht₂ hhash
  have hnew : ∀ {t t' : OneTimeToken}, t ∈ s.db.one_time_tokens.rows →
      links.Held p t'.token_hash s.log → t.token_hash ≠ t'.token_hash := by
    intro t t' ht hheld heq
    exact (hs.fresh.held p _ hheld).2 (heq ▸ hs.used t ht)
  rcases link_origin hpre h ht₁ with ⟨t, ht, hbecomes⟩ | ⟨hcommits, hheld⟩ <;>
    rcases link_origin hpre h ht₂ with ⟨t', ht', hbecomes'⟩ | ⟨hcommits', hheld'⟩
  · rw [hbecomes.hash_eq, hbecomes'.hash_eq] at hhash
    refine s'.db.one_time_tokens.eq_of_key_eq ht₁ ht₂ ?_
    rw [hbecomes.id_eq, hbecomes'.id_eq, hs.unique t ht t' ht' hhash]
  · exact absurd (hbecomes.hash_eq.symm.trans hhash) (hnew ht hheld')
  · exact absurd (hbecomes'.hash_eq.symm.trans hhash.symm) (hnew ht' hheld)
  · exact commitsLink_unique hpre hcommits hcommits'

theorem LinkInv.seen_effect (hs : LinkInv db₀ s) (hpre : LinkPre p s q)
    (h : G.Effect (store P) p r q s x s') : ∀ e ∈ s'.log, ∀ t ∈ e.before.one_time_tokens.rows,
    links.Used (oldLink db₀) t.token_hash s'.log ∧
      (¬ t.Live e.before.clock → Dead t.token_hash s'.db) := by
  rw [h.log_eq]
  intro e he t ht
  have hkept : links.Used (oldLink db₀) t.token_hash s.log ∧
      (¬ t.Live e.before.clock → Dead t.token_hash s.db) := by
    rcases List.mem_cons.mp he with rfl | he
    · exact ⟨hs.used t ht, hs.dead_of_not_live ht⟩
    · exact hs.seen e he t ht
  exact ⟨hkept.1.mono fun _ => List.mem_cons_of_mem _,
    fun hlive => (hkept.2 hlive).effect hs.fresh hpre h hkept.1⟩

theorem LinkInv.spent_effect (hs : LinkInv db₀ s) (hpre : LinkPre p s q)
    (h : G.Effect (store P) p r q s x s') : ∀ e ∈ s'.log, ∀ hash, redeems hash e →
    links.Used (oldLink db₀) hash s'.log ∧ Dead hash s'.db := by
  have hmono : ∀ {hash}, links.Used (oldLink db₀) hash s.log →
      links.Used (oldLink db₀) hash s'.log := by
    intro hash hused
    rw [h.log_eq]
    exact hused.mono fun _ => List.mem_cons_of_mem _
  intro e he hash hr
  rw [h.log_eq] at he
  rcases List.mem_cons.mp he with rfl | he
  · obtain ⟨t, ht, rfl, -, hconsumed⟩ := redeemed_link h hr
    refine ⟨hmono (hs.used t ht), fun t' ht' hhash hlive => ?_⟩
    rcases link_origin hpre h ht' with ⟨t₀, ht₀, hbecomes⟩ | ⟨-, hheld⟩
    · obtain rfl := hbecomes.eq_of_unconsumed hlive.1
      rw [hs.unique t' ht₀ t ht hhash] at ht' hlive
      exact hconsumed t ht' rfl hlive.1
    · rw [hhash] at hheld
      exact (hs.fresh.held p _ hheld).2 (hs.used t ht)
  · obtain ⟨hused, hdead⟩ := hs.spent e he hash hr
    exact ⟨hmono hused, hdead.effect hs.fresh hpre h hused⟩

theorem LinkInv.unseen_effect (hs : LinkInv db₀ s) (hpre : LinkPre p s q)
    (h : G.Effect (store P) p r q s x s') : ∀ p user_id purpose ids,
    Since (looked p user_id purpose ids) (looksForLinks p) s'.log →
      ∀ t ∈ s'.db.one_time_tokens.rows, t.user_id = user_id → t.purpose = purpose →
        t.consumed_at = none → t.id ∈ ids ∨ Since (commitsLink t) (looksForLinks p) s'.log := by
  intro p' user_id purpose ids hsince t ht huser hpurpose hunconsumed
  rw [h.log_eq] at hsince ⊢
  rcases hsince with hlooked | ⟨hnot, hsince⟩
  · left
    unfold looked at hlooked
    split at hlooked
    · next heq =>
      cases heq
      obtain ⟨rfl, rfl, rfl, rfl⟩ := hlooked
      cases h with
      | run _ hrun =>
        cases hrun
        refine List.mem_map_of_mem (List.mem_filter.mpr ⟨ht, ?_⟩)
        simp [huser, hpurpose, hunconsumed]
    · exact hlooked.elim
  · rcases link_origin hpre h ht with ⟨t₀, ht₀, hbecomes⟩ | ⟨hcommits, -⟩
    · obtain rfl := hbecomes.eq_of_unconsumed hunconsumed
      refine (hs.unseen p' user_id purpose ids hsince t ht₀ huser hpurpose hunconsumed).imp_right ?_
      exact fun hlater => .inr ⟨hnot, hlater⟩
    · exact .inr (.inl hcommits)

theorem LinkInv.unfound_effect (hs : LinkInv db₀ s) (hpre : LinkPre p s q)
    (h : G.Effect (store P) p r q s x s') : ∀ p ids found,
    Since (foundLinks p ids found) (looksForLinks p) s'.log →
      ∀ t ∈ s'.db.one_time_tokens.rows, t.id ∈ ids → t.consumed_at = none →
        t.id ∈ found ∨ Since (commitsLink t) (looksForLinks p) s'.log := by
  intro p' ids found hsince t ht hid hunconsumed
  rw [h.log_eq] at hsince ⊢
  rcases hsince with hfound | ⟨hnot, hsince⟩
  · left
    unfold foundLinks at hfound
    split at hfound
    · next heq =>
      cases heq
      obtain ⟨rfl, rfl, rfl⟩ := hfound
      cases h with
      | @run c _ _ _ hrun =>
        obtain ⟨t₀, ht₀, hbecomes⟩ := Stmt.links_from (P := P) (c := c)
          (q := .one_time_tokens (.invalidate _)) (fun _ hq => nomatch hq) hrun t ht
        obtain rfl := hbecomes.eq_of_unconsumed hunconsumed
        simp only [store, Stmt.run, OneTimeTokenStmt.run] at hrun
        split at hrun <;> cases hrun
        refine List.mem_filter.mpr ⟨hid, List.any_eq_true.mpr ⟨t, ht₀, ?_⟩⟩
        simp [hunconsumed]
    · exact hfound.elim
  · rcases link_origin hpre h ht with ⟨t₀, ht₀, hbecomes⟩ | ⟨hcommits, -⟩
    · obtain rfl := hbecomes.eq_of_unconsumed hunconsumed
      refine (hs.unfound p' ids found hsince t ht₀ hid hunconsumed).imp_right ?_
      exact fun hlater => .inr ⟨hnot, hlater⟩
    · exact .inr (.inl hcommits)

theorem LinkInv.once_effect (hs : LinkInv db₀ s) (h : G.Effect (store P) p r q s x s') :
    Throughout (fun e earlier => ∀ hash, redeems hash e → ∀ e' ∈ earlier, ¬ redeems hash e')
      s'.log := by
  rw [h.log_eq]
  refine ⟨fun hash hr e' he' hr' => ?_, hs.once⟩
  obtain ⟨t, ht, hhash, hlive, -⟩ := redeemed_link h hr
  exact (hs.spent e' he' hash hr').2 t ht hhash hlive

theorem LinkInv.never_effect (hs : LinkInv db₀ s) (h : G.Effect (store P) p r q s x s') :
    Throughout (fun e earlier => ∀ hash, redeems hash e → ∀ e' ∈ e :: earlier,
      ∀ t ∈ e'.before.one_time_tokens.rows, t.token_hash = hash → t.Live e'.before.clock)
      s'.log := by
  rw [h.log_eq]
  refine ⟨fun hash hr e' he' t' ht' hhash' => ?_, hs.never⟩
  obtain ⟨t, ht, hhash, hlive, -⟩ := redeemed_link h hr
  rcases List.mem_cons.mp he' with rfl | he'
  · rwa [hs.unique t' ht' t ht (hhash'.trans hhash.symm)]
  · by_contra hdead
    exact (hs.seen e' he' t' ht').2 hdead t ht (hhash.trans hhash'.symm) hlive

/-- **A new link supersedes the others** of its account and kind, unless one was overlooked. -/
theorem LinkInv.superseded_self (hs : LinkInv db₀ s) (hpre : LinkPre p s q)
    (h : invalidationsSee.Effect (store P) p r q s x s') {row : OneTimeToken}
    (hcommits : commitsLink row ⟨p, r, s.db, q, x⟩) {t : OneTimeToken}
    (ht : t ∈ s.db.one_time_tokens.rows) (hrivals : t.Rivals row) : Dead t.token_hash s'.db := by
  intro t' ht' hhash hlive
  unfold commitsLink at hcommits
  split at hcommits
  · next heq =>
    cases heq
    obtain ⟨found, now, row₀, ids, rfl, hlooked, hfound, hheld⟩ := hpre
    obtain rfl := List.mem_singleton.mp hcommits
    cases h with
    | run hadmits hrun =>
      cases hrun
      rw [Shared.push_db] at ht' hlive
      rcases Write.of_mem_issue ht' with ⟨t₀, ht₀, hbecomes, hconsumed⟩ | rfl
      · obtain rfl := hbecomes.eq_of_unconsumed hlive.1
        obtain rfl := hs.unique t' ht₀ t ht hhash
        have hlater : ¬ Since (commitsLink t') (looksForLinks p) s.log := fun hlater =>
          hadmits.2 ⟨row, hcommits, t', ht, hrivals, hlive, hlater⟩
        have hids : t'.id ∈ ids := (hs.unseen p _ _ ids hlooked t' ht hrivals.1 hrivals.2
          hlive.1).resolve_right hlater
        have hin : t'.id ∈ found :=
          (hs.unfound p ids found hfound t' ht hids hlive.1).resolve_right hlater
        have heq := hconsumed hin
        rw [hlive.1] at heq
        cases heq
      · rw [hhash] at hheld
        exact (hs.fresh.held p _ hheld).2 (hs.used t ht)
  · exact hcommits.elim

theorem LinkInv.superseded_effect (hs : LinkInv db₀ s) (hpre : LinkPre p s q)
    (h : invalidationsSee.Effect (store P) p r q s x s') : ∀ e ∈ s'.log, ∀ row, commitsLink row e →
      ∀ t ∈ e.before.one_time_tokens.rows, t.Rivals row → Dead t.token_hash s'.db := by
  rw [h.log_eq]
  intro e he row hcommits t ht hrivals
  rcases List.mem_cons.mp he with rfl | he
  · exact hs.superseded_self hpre h hcommits ht hrivals
  · exact (hs.superseded e he row hcommits t ht hrivals).effect hs.fresh hpre h
      (hs.seen e he t ht).1

theorem LinkInv.one_effect (hs : LinkInv db₀ s) (hpre : LinkPre p s q)
    (h : invalidationsSee.Effect (store P) p r q s x s') : OneLive s'.db := by
  intro t₁ ht₁ t₂ ht₂ hrivals hlive₁ hlive₂
  rcases link_origin hpre h ht₁ with ⟨t, ht, hbecomes⟩ | ⟨hcommits, -⟩ <;>
    rcases link_origin hpre h ht₂ with ⟨t', ht', hbecomes'⟩ | ⟨hcommits', -⟩
  · obtain rfl := hbecomes.eq_of_unconsumed hlive₁.1
    obtain rfl := hbecomes'.eq_of_unconsumed hlive₂.1
    rw [clock_of_effect h] at hlive₁ hlive₂
    exact hs.one t₁ ht t₂ ht' hrivals hlive₁ hlive₂
  · obtain rfl := hbecomes.eq_of_unconsumed hlive₁.1
    exact absurd hlive₁ (hs.superseded_self hpre h hcommits' ht hrivals t₁ ht₁ rfl)
  · obtain rfl := hbecomes'.eq_of_unconsumed hlive₂.1
    exact absurd hlive₂
      (hs.superseded_self hpre h hcommits ht' ⟨hrivals.1.symm, hrivals.2.symm⟩ t₂ ht₂ rfl)
  · exact commitsLink_unique hpre hcommits hcommits'

/-- Every statement of the regime keeps the invariant. Each clause is kept for reasons of its own,
and most by appeal to some of the others, so the parts are lemmas by themselves. The regime is
needed for the clauses about rival links: that a new link leaves no other alive is what an
invalidation that sees every committed link makes sure of. -/
theorem LinkInv.effect (hs : LinkInv db₀ s) (hpre : LinkPre p s q)
    (h : invalidationsSee.Effect (store P) p r q s x s') : LinkInv db₀ s' where
  once := hs.once_effect h
  never := hs.never_effect h
  one := hs.one_effect hpre h
  superseded := hs.superseded_effect hpre h
  fresh := fresh_links hs.fresh hpre h
  used := hs.used_effect hpre h
  unique := hs.unique_effect hpre h
  seen := hs.seen_effect hpre h
  spent := hs.spent_effect hpre h
  unseen := hs.unseen_effect hpre h
  unfound := hs.unfound_effect hpre h

end Effect

theorem Dead.pass {hash : TokenHash} {db : Database} {n : ℕ} (h : Dead hash db) :
    Dead hash { db with clock := db.clock + n } :=
  fun t ht hhash hlive => h t ht hhash (hlive.mono (Nat.le_add_right _ n))

/-- Time only makes links die. -/
theorem LinkInv.pass {db₀ : Database} {s : State} {n : ℕ} (hs : LinkInv db₀ s) :
    LinkInv db₀ { s with db := { s.db with clock := s.db.clock + n } } where
  once := hs.once
  never := hs.never
  one := fun t ht t' ht' hrivals hlive hlive' => hs.one t ht t' ht' hrivals
    (hlive.mono (Nat.le_add_right _ n)) (hlive'.mono (Nat.le_add_right _ n))
  superseded := fun e he row hcommits t ht hrivals =>
    (hs.superseded e he row hcommits t ht hrivals).pass
  fresh := hs.fresh
  used := hs.used
  unique := hs.unique
  seen := fun e he t ht => ⟨(hs.seen e he t ht).1, fun hlive => ((hs.seen e he t ht).2 hlive).pass⟩
  spent := fun e he hash hr => ⟨(hs.spent e he hash hr).1, (hs.spent e he hash hr).2.pass⟩
  unseen := hs.unseen
  unfound := hs.unfound

/-- Hashes determine links, whose tokens were generated, and there is one at a time: what a database
has to bring along. -/
structure LinkTable (db : Database) : Prop where
  unique : ∀ t ∈ db.one_time_tokens.rows, ∀ t' ∈ db.one_time_tokens.rows,
    t.token_hash = t'.token_hash → t = t'
  issued : ∀ t ∈ db.one_time_tokens.rows, db.tokenIssued t.token_hash
  one : OneLive db

theorem LinkInv.start {db : Database} (h : LinkTable db) : LinkInv db (World.start db).shared where
  once := throughout_nil
  never := throughout_nil
  one := h.one
  superseded := fun e he => absurd he List.not_mem_nil
  fresh := by
    refine Naming.fresh_nil ?_
    rintro hash ⟨t, ht, rfl⟩
    exact h.issued t ht
  used := fun t ht => .inl ⟨t, ht, rfl⟩
  unique := h.unique
  seen := fun e he => absurd he List.not_mem_nil
  spent := fun e he => absurd he List.not_mem_nil
  unseen := fun _ _ _ _ hsince => absurd hsince since_nil
  unfound := fun _ _ _ hsince => absurd hsince since_nil

/-- The logic of links. -/
def linkLogic (P : Platform) (db₀ : Database) : Logic invalidationsSee (store P) where
  inv := LinkInv db₀
  rely _ _ _ := True
  pre p _ q s := LinkPre p s q
  rely_refl _ _ := trivial
  rely_trans _ _ := trivial
  sound hs hpre h := ⟨hs.effect hpre h, fun _ _ => trivial⟩
  stop_sound _ hs := ⟨{ hs with }, fun _ _ => trivial⟩
  pass_sound hs := ⟨hs.pass, fun _ => trivial⟩

/-! ### The scripts -/

section Scripts

variable {d : Deployment} {db₀ : Database} {p : ℕ} {r : Request} {s s' : State} {ε α : Type}

/-- Code that commits nothing. -/
theorem wp_of_linkPre {x : Code ε α} (hx : x.Issues fun q => ∀ p s, LinkPre p s q) :
    (linkLogic d.platform db₀).wp p r x (fun _ _ => True) s :=
  Logic.wp_of_does (fun q => ∀ p s, LinkPre p s q) (fun _ _ => True) (fun _ => True)
    (fun _ => True) (fun _ _ => trivial) (fun hq _ _ => hq _ _)
    (fun _ _ _ _ _ => ⟨trivial, trivial⟩) (fun _ _ => trivial) hx.does trivial

theorem pid_of_looksForLinks {e : Event} (h : looksForLinks p e) : e.pid = p := by
  unfold looksForLinks at h
  split at h
  · exact h
  · exact h.elim

theorem pid_of_looked {user_id : Uuid} {purpose : OneTimeTokenPurpose} {ids : List Uuid} {e : Event}
    (h : looked p user_id purpose ids e) : e.pid = p := by
  unfold looked at h
  split at h
  · exact h.1
  · exact h.elim

theorem pid_of_foundLinks {ids found : List Uuid} {e : Event} (h : foundLinks p ids found e) :
    e.pid = p := by
  unfold foundLinks at h
  split at h
  · exact h.1
  · exact h.elim

/-- A hash that is held stays held while others run. -/
theorem held_of_others {hash : TokenHash} (he : Others p s s') :
    links.Held p hash s'.log ↔ links.Held p hash s.log := by
  refine he.since_iff (fun e hgives => ?_) fun e huses => ?_
  · obtain ⟨p', r, db, q, x⟩ := e
    cases q <;> cases x <;> first | exact hgives.elim | exact hgives.1
  · obtain ⟨p', r, db, q, x⟩ := e
    cases q <;> cases x <;> first | exact huses.elim | exact huses.1

/-- The invalidation knows what it has looked for and what it has found. -/
theorem wp_invalidate_outstanding (user_id : Uuid) (purpose : OneTimeTokenPurpose)
    {hash : TokenHash} (hheld : links.Held p hash s.log) :
    (linkLogic d.platform db₀).wp p r (IdentityService.invalidate_outstanding user_id purpose)
      (fun y s' => ∀ found, y = .ok found → links.Held p hash s'.log ∧
        ∃ ids, Since (looked p user_id purpose ids) (looksForLinks p) s'.log ∧
          Since (foundLinks p ids found) (looksForLinks p) s'.log) s := by
  refine Logic.wp_query_bind fun s₁ he₁ =>
    ⟨trivial, fun ids s₂ hx₂ _ => ?_, fun _ _ _ _ _ _ => nofun⟩
  have hheld₂ : links.Held p hash s₂.log := by
    rw [hx₂.log_eq]
    exact .inr ⟨id, (held_of_others he₁.others).mpr hheld⟩
  have hlooked₂ : Since (looked p user_id purpose ids) (looksForLinks p) s₂.log := by
    rw [hx₂.log_eq]
    exact .inl ⟨rfl, rfl, rfl, rfl⟩
  refine Logic.wp_query fun s₃ he₃ => ⟨trivial, fun found s₄ hx₄ _ s₅ he₅ found' heq => ?_,
    fun _ _ _ _ _ _ => nofun⟩
  cases heq
  refine ⟨(held_of_others he₅.others).mpr ?_, ids,
    (he₅.others.since_iff (fun _ => pid_of_looked) fun _ => pid_of_looksForLinks).mpr ?_,
    (he₅.others.since_iff (fun _ => pid_of_foundLinks) fun _ => pid_of_looksForLinks).mpr ?_⟩
  · rw [hx₄.log_eq]
    exact .inr ⟨id, (held_of_others he₃.others).mpr hheld₂⟩
  · rw [hx₄.log_eq]
    exact .inr ⟨id, (he₃.others.since_iff (fun _ => pid_of_looked)
      fun _ => pid_of_looksForLinks).mpr hlooked₂⟩
  · rw [hx₄.log_eq]
    exact .inl ⟨rfl, rfl, rfl⟩

/-- **Issuing a link** consumes what it has found, under a hash nobody else has. -/
theorem wp_issue_one_time_token (user_id : Uuid) (purpose : OneTimeTokenPurpose)
    (ttl_seconds : ℕ) :
    (linkLogic d.platform db₀).wp p r
      (IdentityService.issue_one_time_token user_id purpose ttl_seconds) (fun _ _ => True) s := by
  refine Logic.wp_query_bind fun s₁ _ => ⟨trivial, fun token s₂ hx₂ _ => ?_,
    fun _ _ _ _ _ _ => trivial⟩
  have hheld₂ : links.Held p (hash_secret_token ⟨token⟩) s₂.log := by
    rw [hx₂.log_eq]
    exact .inl ⟨rfl, rfl⟩
  refine Logic.wp_query_bind fun s₃ he₃ => ⟨trivial, fun at_issue s₄ hx₄ hs₄ => ?_,
    fun _ _ _ _ _ _ => trivial⟩
  have hheld₄ : links.Held p (hash_secret_token ⟨token⟩) s₄.log := by
    rw [hx₄.log_eq]
    exact .inr ⟨id, (held_of_others he₃.others).mpr hheld₂⟩
  refine wp_expires_at_bind (fun _ => ?_) fun _ _ _ => trivial
  refine Logic.wp_ensuring hs₄ (Logic.wp_mono (?_ : Logic.wp _ _ _ _ (fun _ _ => True) _)
    fun _ _ _ _ _ _ => ⟨trivial, fun _ _ _ _ _ _ => trivial⟩)
  refine Logic.wp_query_bind fun s₅ he₅ => ⟨trivial, fun now s₆ hx₆ hs₆ => ?_,
    fun _ _ _ _ _ _ => trivial⟩
  have hheld₆ : links.Held p (hash_secret_token ⟨token⟩) s₆.log := by
    rw [hx₆.log_eq]
    exact .inr ⟨id, (held_of_others he₅.others).mpr hheld₄⟩
  refine Logic.wp_bind hs₆ (wp_invalidate_outstanding user_id purpose hheld₆)
    (fun found s₇ _ h₇ => ?_)
    fun _ _ _ _ => trivial
  obtain ⟨hheld₇, ids, hlooked₇, hfound₇⟩ := h₇ found rfl
  refine Logic.wp_query_bind fun s₈ he₈ => ⟨trivial, fun row s₉ hx₉ _ => ?_,
    fun _ _ _ _ _ _ => trivial⟩
  refine Logic.wp_query_bind fun s₁₀ he₁₀ => ⟨?_, fun _ _ _ _ _ _ => trivial,
    fun _ _ _ _ _ _ => trivial⟩
  -- The row is the one the insert was asked for.
  obtain ⟨-, c, db, hrun, -⟩ := hx₉.of_ok
  have hrow : row.user_id = user_id ∧ row.purpose = purpose ∧
      row.token_hash = hash_secret_token ⟨token⟩ := by
    simp only [store, Stmt.run, OneTimeTokenStmt.run] at hrun
    (repeat' split at hrun) <;> cases hrun
    exact ⟨rfl, rfl, rfl⟩
  obtain ⟨huser, hpurpose, hhash⟩ := hrow
  have hlater : ∀ {mark : Event → Prop}, (∀ e, mark e → e.pid = p) →
      Since mark (looksForLinks p) s₇.log → Since mark (looksForLinks p) s₁₀.log := by
    intro mark hmark hsince
    rw [he₁₀.others.since_iff hmark fun _ => pid_of_looksForLinks, hx₉.log_eq]
    exact .inr ⟨id, (he₈.others.since_iff hmark fun _ => pid_of_looksForLinks).mpr hsince⟩
  rw [← huser, ← hpurpose] at hlooked₇
  refine ⟨found, now, row, ids, rfl, hlater (fun _ => pid_of_looked) hlooked₇,
    hlater (fun _ => pid_of_foundLinks) hfound₇, ?_⟩
  rw [hhash, held_of_others he₁₀.others, hx₉.log_eq]
  exact .inr ⟨id, (held_of_others he₈.others).mpr hheld₇⟩

theorem wp_request_password_reset (email : String) :
    (linkLogic d.platform db₀).wp p r (IdentityService.request_password_reset d email)
      (fun _ _ => True) s := by
  refine Logic.wp_query_bind fun s₁ _ => ⟨trivial, fun found s₂ _ hs₂ => ?_,
    fun _ _ _ _ _ _ => trivial⟩
  cases found with
  | none => exact fun _ _ => trivial
  | some user =>
    dsimp only
    split
    · exact fun _ _ => trivial
    · exact Logic.wp_bind hs₂ (wp_issue_one_time_token _ _ _) (fun _ _ _ _ _ _ => trivial)
        fun _ _ _ _ => trivial

theorem wp_resend_verification (email : String) :
    (linkLogic d.platform db₀).wp p r (IdentityService.resend_verification d email)
      (fun _ _ => True) s := by
  refine Logic.wp_query_bind fun s₁ _ => ⟨trivial, fun found s₂ _ hs₂ => ?_,
    fun _ _ _ _ _ _ => trivial⟩
  cases found with
  | none => exact fun _ _ => trivial
  | some user =>
    dsimp only
    split
    · exact fun _ _ => trivial
    · exact Logic.wp_bind hs₂ (wp_issue_one_time_token _ _ _) (fun _ _ _ _ _ _ => trivial)
        fun _ _ _ _ => trivial

theorem reset_password_linkPre (token : SecretToken) (new_password : String) :
    (IdentityService.reset_password d token new_password).Issues fun q => ∀ p s, LinkPre p s q := by
  refine (Script.issues_query fun _ _ => trivial).bind fun found => ?_
  cases found with
  | none => trivial
  | some user_id =>
    refine Script.Issues.bind ((Script.issues_query fun _ _ => trivial).bind fun _ =>
      Script.issues_ret) fun hash => (Script.issues_query fun _ _ => trivial).bind fun _ => ?_
    refine Script.Issues.bind ((Script.issues_query fun _ _ => trivial).bind fun _ =>
      Script.issues_query fun _ _ => trivial) fun _ => ?_
    exact (Script.issues_query fun _ _ => trivial).bind fun _ => Script.issues_ret

theorem verify_email_linkPre (token : SecretToken) :
    (IdentityService.verify_email token).Issues fun q => ∀ p s, LinkPre p s q := by
  refine (Script.issues_query fun _ _ => trivial).bind fun found => ?_
  cases found with
  | none => trivial
  | some user_id =>
    exact (Script.issues_query fun _ _ => trivial).bind fun _ =>
      (Script.issues_query fun _ _ => trivial).bind fun _ => Script.issues_ret

/-- The requests around links meet the logic's preconditions. -/
theorem wp_handlesLinks (hr : r.handlesLinks) :
    (linkLogic d.platform db₀).wp p r (Request.code d r) (fun _ _ => True) s := by
  cases r with
  | request_password_reset email => exact wp_request_password_reset email
  | resend_verification email => exact wp_resend_verification email
  | reset_password token new_password =>
    exact wp_of_linkPre (reset_password_linkPre token new_password)
  | verify_email token => exact wp_of_linkPre (verify_email_linkPre token)
  | _ => exact hr.elim

end Scripts

variable {d : Deployment} {db : Database} {w : World}

/-- **A link works once, and there is one at a time**, in every run in which no link is committed
over a live one that its invalidation could not see. -/
theorem linksSound_of_reaches (hdb : LinkTable db)
    (h : Reaches d invalidationsSee (World.start db) w) : LinksSound w.shared := by
  have hspec : ∀ p r s, invalidationsSee.spawns r → (linkLogic d.platform db).inv s →
      (∀ e ∈ s.log, e.pid ≠ p) →
      (linkLogic d.platform db).wp p r (Request.code d r) (fun _ _ => True) s :=
    fun _ _ _ hr _ _ => wp_handlesLinks hr
  have hsafe : (linkLogic d.platform db).Safe (fun _ _ _ _ => True) w :=
    Logic.safe_of_reaches hspec (.start (LinkInv.start hdb)) h
  exact hsafe.inv.toLinksSound

/-! ### Two requests for a reset

Neither sees the link of the other, since neither has committed when the other invalidates. Both
links are committed, and both are alive. -/

instance (t : OneTimeToken) (clock : Timestamp) : Decidable (t.Live clock) :=
  inferInstanceAs (Decidable (_ ∧ _))

instance (t t' : OneTimeToken) : Decidable (t.Rivals t') := inferInstanceAs (Decidable (_ ∧ _))

instance (db : Database) : Decidable (OneLive db) :=
  inferInstanceAs (Decidable (∀ t ∈ db.one_time_tokens.rows, ∀ t' ∈ db.one_time_tokens.rows,
    t.Rivals t' → t.Live db.clock → t'.Live db.clock → t = t'))

instance (hash : TokenHash) (db : Database) : Decidable (Dead hash db) :=
  inferInstanceAs (Decidable (∀ t ∈ db.one_time_tokens.rows, t.token_hash = hash →
    ¬ t.Live db.clock))

instance (row : OneTimeToken) : DecidablePred (commitsLink row) := fun e => by
  delta commitsLink
  split <;> infer_instance

instance (hash : TokenHash) : DecidablePred (redeems hash) := fun e => by
  delta redeems
  split <;> infer_instance

instance (p : ℕ) : DecidablePred (looksForLinks p) := fun e => by
  delta looksForLinks
  split <;> infer_instance

instance (p : ℕ) (s : State) : DecidablePred (overlooks p s) := fun q => by
  induction q using Stmt.casesOn <;> (delta overlooks; infer_instance)

instance : DecidablePred Request.handlesLinks := fun r => by
  delta Request.handlesLinks
  split <;> infer_instance

/-- Two requests for a link to reset one password, neither of which has committed yet. -/
def twoResets : List Step :=
  [.spawn 0 (.request_password_reset "ada@example.org"), .step 0 {}, .step 0 { id := 40 },
    .step 0 {}, .step 0 {}, .step 0 {}, .step 0 {}, .step 0 { id := 41 },
    .spawn 1 (.request_password_reset "ada@example.org"), .step 1 {}, .step 1 { id := 42 },
    .step 1 {}, .step 1 {}, .step 1 {}, .step 1 {}, .step 1 { id := 43 }]

/-- **Both links stand**: each request has invalidated what it saw, which was nothing. -/
theorem not_linksSound : ¬ ∀ w, Reaches .sample (Regime.free Request.handlesLinks)
    (World.start .sample) w → LinksSound w.shared := by
  intro hall
  have hone := (hall _ (Deployment.sample.reaches_play _ (twoResets ++ [.step 0 {}, .step 1 {}])
    .sample)).one
  revert hone
  decide +kernel

/-- One request for a link, and its redemption, after another. -/
def resetTwice : List Step :=
  [.spawn 0 (.request_password_reset "ada@example.org"), .step 0 {}, .step 0 { id := 40 },
    .step 0 {}, .step 0 {}, .step 0 {}, .step 0 {}, .step 0 { id := 41 }, .step 0 {},
    .spawn 1 (.request_password_reset "ada@example.org"), .step 1 {}, .step 1 { id := 42 },
    .step 1 {}, .step 1 {}, .step 1 {}, .step 1 {}, .step 1 { id := 43 }, .step 1 {},
    .spawn 2 (.reset_password ⟨42⟩ "new"), .step 2 {}]

/-- One after the other, the second link supersedes the first and works. -/
theorem linksSound_resetTwice :
    let s := (Deployment.sample.play invalidationsSee resetTwice .sample).shared
    (∃ e ∈ s.log, redeems ⟨⟨42⟩⟩ e) ∧ (∃ t ∈ s.db.one_time_tokens.rows, t.token_hash = ⟨⟨40⟩⟩) ∧
      Dead ⟨⟨40⟩⟩ s.db ∧ LinksSound s :=
  ⟨by decide +kernel, by decide +kernel, by decide +kernel,
    linksSound_of_reaches ⟨by decide, fun t ht => absurd ht List.not_mem_nil, by decide⟩
      (Deployment.sample.reaches_play invalidationsSee resetTwice .sample)⟩

end SubmitSnap
