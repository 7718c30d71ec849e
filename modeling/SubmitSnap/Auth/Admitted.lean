import SubmitSnap.Tenant.Register

/-!
# Admission before change

Whoever presents an access token is checked once, by one look each at the clock, the session, the
account and its roles, and is trusted from then on. By the time the request changes something the
session may be over, the account disabled and the role gone. What does hold is that nobody gets that
far on a token that was never good: for each of the four there was a moment since the request
arrived at which it really was in order.

The looks are separate statements, and others may change things between any two of them. So there
need not be *one* moment at which all four were in order: a session may end right after it was found
live, and the account be enabled only then.

## The argument

`admissionLogic` asks of a request with a token that whatever it does be a look, or come after
`Admitted`, which is a fact about the log of the run: the process has been given those answers. The
log only grows, so once a process is admitted it stays admitted whatever the others do, and the
proof for a handler goes through its check once and never again (`wp_of_admitted`). Looks change
nothing (`Stmt.db_of_looks`), hence a change is no look, and whoever makes one is admitted. Only
then the answers are turned into facts about the database: an answer that is in the log was
computed from the database before it, and the run did go through that state (`moment_of_mem`).

## The clock

Whether a token has expired is for the library to say. The code hands it the Unix time, which counts
whole seconds; the clock of the database counts microseconds. With a library that keeps to its
documentation a token may therefore be used for five seconds and the rest of a second after it has
expired, and the bound is stated in whole seconds.

## Main definitions

* `Request.claims` — the access token a request presents.
* `Admitted` — what its process has seen of the token.
* `admissionLogic` — before it does anything but look, a request is admitted.

## Main results

* `changed_as_admitted` — a change was preceded by everything that admits to it.
-/

namespace SubmitSnap

open Interleave
open Interleave.Script

/-- The access token a request presents. -/
def Request.claims : Request → Option AccessClaims
  | authenticate claims | change_password claims _ _ | as_admin claims _ => some claims
  | _ => none

/-- The requests that only administrators may make. -/
def Request.for_admins : Request → Bool
  | as_admin _ _ => true
  | _ => false

/-- The statements a token is checked with. -/
def Stmt.looks : Stmt → Prop
  | now | sessions (.is_active _ _) | users (.find_by_id _) | roles (.roles_for_user _) => True
  | _ => False

/-- `p` has been told that the token is in time. -/
def SeenTimely (P : Platform) (p : ℕ) (claims : AccessClaims) (log : List Event) : Prop :=
  ∃ (r : Request) (before : Database) (now : Timestamp), ⟨p, r, before, .now, .ok now⟩ ∈ log ∧
    P.is_current claims.exp (unix_time now) LEEWAY_SECONDS

/-- `p` has found the token in time, its session live and its account enabled. -/
structure Admitted (P : Platform) (p : ℕ) (claims : AccessClaims) (log : List Event) : Prop where
  timely : SeenTimely P p claims log
  active : ∃ r before,
    ⟨p, r, before, .sessions (.is_active claims.sid claims.sub), .ok true⟩ ∈ log
  enabled : ∃ r before user,
    ⟨p, r, before, .users (.find_by_id claims.sub), .ok (some user)⟩ ∈ log ∧
    user.status ≠ .disabled

/-- `p` has found that the account is an administrator's. -/
def SeenAdmin (p : ℕ) (claims : AccessClaims) (log : List Event) : Prop :=
  ∃ r before roles, ⟨p, r, before, .roles (.roles_for_user claims.sub), .ok roles⟩ ∈ log ∧
    .admin ∈ roles

/-- Before a request that presents a token does anything but look, it is admitted. -/
def AdmissionPre (P : Platform) (p : ℕ) (r : Request) (q : Stmt) (s : State) : Prop :=
  ∀ claims ∈ r.claims,
    q.looks ∨ Admitted P p claims s.log ∧ (r.for_admins = true → SeenAdmin p claims s.log)

/-- The logic of requests that check their token first. There is no invariant of the database in it:
what a request relies on is what it has been answered, which nobody can take back. -/
def admissionLogic (P : Platform) (G : Regime) : Logic G (store P) := .ofPre (AdmissionPre P)

section Facts

variable {P : Platform} {p : ℕ} {c : Choice} {db db' : Database} {q : Stmt}
  {x : Except Failure q.Reply} {claims : AccessClaims} {log log' : List Event}

theorem SeenTimely.mono (h : SeenTimely P p claims log) (hlog : ∀ e ∈ log, e ∈ log') :
    SeenTimely P p claims log' := by
  obtain ⟨r, before, now, hnow, htimely⟩ := h
  exact ⟨r, before, now, hlog _ hnow, htimely⟩

theorem Admitted.mono (h : Admitted P p claims log) (hlog : ∀ e ∈ log, e ∈ log') :
    Admitted P p claims log' := by
  obtain ⟨htimely, ⟨r', before', hactive⟩, r'', before'', user, huser, henabled⟩ := h
  exact ⟨htimely.mono hlog, ⟨r', before', hlog _ hactive⟩, r'', before'', user, hlog _ huser,
    henabled⟩

theorem SeenAdmin.mono (h : SeenAdmin p claims log) (hlog : ∀ e ∈ log, e ∈ log') :
    SeenAdmin p claims log' := by
  obtain ⟨r, before, roles, hroles, hadmin⟩ := h
  exact ⟨r, before, roles, hlog _ hroles, hadmin⟩

/-- A look changes nothing. -/
theorem Stmt.db_of_looks (hq : q.looks) (h : q.run P p c db = some (db', x)) : db' = db := by
  unfold Stmt.looks at hq
  split at hq
  · cases h
    rfl
  · cases h
    rfl
  · cases h
    rfl
  · cases h
    rfl
  · exact hq.elim

end Facts

section Scripts

variable {P : Platform} {d : Deployment} {G : Regime} {p : ℕ} {r : Request} {s : State}
  {claims : AccessClaims} {ε α : Type}

/-- What holds of a result that ends well, under a translation of the errors. -/
theorem wp_mapError_ok {L : Logic G (store P)} {ε' : Type} {f : ε' → ε} {x : Code ε' α}
    {Φ : α → State → Prop} (h : L.wp p r x (fun y s' => ∀ a, y = .ok a → Φ a s') s) :
    L.wp p r (mapError f x) (fun y s' => ∀ a, y = .ok a → Φ a s') s := by
  refine Logic.wp_mapError (Logic.wp_mono h ?_)
  rintro (e | a) s' _ h a' heq
  · cases heq
  · cases heq
    exact h a rfl

/-- Who is looked up by an identifier has it. -/
theorem id_of_find_by_id {id : Uuid} {found : Option UserRecord} {s' : State}
    (hx : G.Effect (store P) p r (.users (.find_by_id id)) s (.ok found) s') :
    ∀ user ∈ found, user.id = id := by
  intro user huser
  obtain ⟨-, c, db, hrun, -⟩ := hx.of_ok
  have hfind : s.db.users.find? id = found :=
    Except.ok.inj (congrArg Prod.snd (Option.some.inj hrun))
  exact (Table.find?_eq_some.mp (hfind.trans huser)).2

theorem pre_of_looks {q : Stmt} (hq : q.looks) : AdmissionPre P p r q s := fun _ _ => .inl hq

/-- Whoever is admitted may do anything. -/
theorem wp_of_admitted (hr : r.claims = some claims) (h : Admitted P p claims s.log)
    (hadmin : r.for_admins = true → SeenAdmin p claims s.log) (x : Code ε α) :
    (admissionLogic P G).wp p r x
      (fun _ s' => ∀ claims ∈ r.claims, Admitted P p claims s'.log) s := by
  refine Logic.wp_of_does (fun _ => True) (fun _ _ => True)
    (fun s => Admitted P p claims s.log ∧ (r.for_admins = true → SeenAdmin p claims s.log))
    (fun _ => True) (fun h he => ?_) (fun {q s} _ _ h claims' hclaims => ?_) (fun _ _ h hx _ => ?_)
    (fun _ h claims' hclaims => ?_) (issues_of_forall (fun _ => trivial) x).does ⟨h, hadmin⟩
  · exact ⟨h.1.mono fun _ => he.others.mem, fun hr => (h.2 hr).mono fun _ => he.others.mem⟩
  · obtain rfl : claims = claims' := Option.some.inj (hr.symm.trans hclaims)
    exact .inr h
  · exact ⟨trivial, h.1.mono fun _ => hx.mem, fun hr => (h.2 hr).mono fun _ => hx.mem⟩
  · obtain rfl : claims = claims' := Option.some.inj (hr.symm.trans hclaims)
    exact h.1

/-- What is known once the account behind the token is resolved. -/
structure Resolved (P : Platform) (p : ℕ) (claims : AccessClaims) (user : PublicUser)
    (log : List Event) : Prop where
  admitted : Admitted P p claims log
  admin : RoleName.admin ∈ user.roles → SeenAdmin p claims log

/-- The account and its roles are those of the token. -/
theorem wp_session_user_resolved (htimely : SeenTimely P p claims s.log)
    (hactive : ∃ r before,
      ⟨p, r, before, .sessions (.is_active claims.sid claims.sub), .ok true⟩ ∈ s.log) :
    (admissionLogic P G).wp p r (AuthService.session_user claims.sub)
      (fun y s' => ∀ user, y = .ok user → Resolved P p claims user s'.log) s := by
  obtain ⟨r₁, before₁, hactive⟩ := hactive
  refine Logic.wp_bind (Ψ := fun y s' => ∀ found, y = .ok found → (∀ e ∈ s.log, e ∈ s'.log) ∧
    ∃ r before, ⟨p, r, before, .users (.find_by_id claims.sub), .ok found⟩ ∈ s'.log ∧
      ∀ user ∈ found, user.id = claims.sub) trivial (wp_mapError_ok ?_)
    (fun found s₁ _ hfound => ?_) fun _ _ _ _ => nofun
  · refine Logic.wp_query fun s₁ he₁ => ⟨pre_of_looks trivial, fun found s₂ hx₂ _ s₃ he₃ => ?_,
      fun _ _ _ _ _ _ _ => nofun⟩
    rintro found' heq
    cases heq
    refine ⟨fun _ he => he₃.others.mem (hx₂.mem (he₁.others.mem he)), r, _,
      he₃.others.mem hx₂.mem_self, id_of_find_by_id hx₂⟩
  obtain ⟨hmem, r₂, before₂, huser, hid⟩ := hfound found rfl
  cases found with
  | none => exact fun _ _ _ => nofun
  | some user =>
    dsimp only
    split
    · exact fun _ _ _ => nofun
    · next henabled =>
      refine Logic.wp_mapError (Logic.wp_query_bind fun s₂ he₂ => ⟨pre_of_looks trivial,
        fun roles s₃ hx₃ _ s₄ he₄ => ?_, fun _ _ _ _ _ _ _ => nofun⟩)
      have hlog : ∀ e ∈ s₁.log, e ∈ s₄.log := fun _ he =>
        he₄.others.mem (hx₃.mem (he₂.others.mem he))
      rintro user' heq
      cases heq
      refine ⟨⟨htimely.mono fun _ he => hlog _ (hmem _ he), ⟨r₁, before₁, hlog _ (hmem _ hactive)⟩,
        r₂, before₂, user, hlog _ huser, henabled⟩, fun hadmin => ?_⟩
      have hroles := he₄.others.mem hx₃.mem_self
      rw [hid user rfl] at hroles
      exact ⟨r, _, roles, hroles, hadmin⟩

/-- **Whoever is let in is admitted.** -/
theorem wp_authenticate_resolved (claims : AccessClaims) :
    (admissionLogic d.platform G).wp p r (AuthService.authenticate d claims)
      (fun y s' => ∀ user, y = .ok user → Resolved d.platform p claims user.user s'.log) s := by
  refine Logic.wp_query_bind fun s₁ he₁ => ⟨pre_of_looks trivial, fun now s₂ hx₂ _ => ?_,
    fun _ _ _ _ _ _ _ => nofun⟩
  split
  · exact fun _ _ _ => nofun
  next hcurrent =>
  rw [Bool.not_eq_true, Bool.not_eq_false'] at hcurrent
  refine Logic.wp_query_bind fun s₃ he₃ => ⟨pre_of_looks trivial, fun active s₄ hx₄ _ => ?_,
    fun _ _ _ _ _ _ _ => nofun⟩
  cases active with
  | false => exact fun _ _ _ => nofun
  | true =>
    refine Logic.wp_bind trivial (wp_session_user_resolved
      ⟨r, _, now, hx₄.mem (he₃.others.mem hx₂.mem_self), hcurrent⟩
      ⟨r, _, hx₄.mem_self⟩) (fun user s₅ _ hresolved s₆ he₆ => ?_) fun _ _ _ _ => nofun
    rintro user' heq
    cases heq
    have hlog : ∀ e ∈ s₅.log, e ∈ s₆.log := fun _ => he₆.others.mem
    exact ⟨(hresolved user rfl).admitted.mono hlog,
      fun hadmin => ((hresolved user rfl).admin hadmin).mono hlog⟩

/-- Who has ended well was admitted. -/
def AdmittedIfWell (P : Platform) (p : ℕ) (r : Request) (y : Except ε α) (s : State) : Prop :=
  ∀ a, y = .ok a → ∀ claims ∈ r.claims, Admitted P p claims s.log

/-- What follows the check of a token. -/
theorem wp_authenticate_bind {f : AuthenticatedUser → Code AppError α}
    (hf : ∀ user s', Resolved d.platform p claims user.user s'.log →
      (admissionLogic d.platform G).wp p r (f user) (AdmittedIfWell d.platform p r) s') :
    (admissionLogic d.platform G).wp p r
      (mapError .auth (AuthService.authenticate d claims) >>= f)
      (AdmittedIfWell d.platform p r) s := by
  exact Logic.wp_bind trivial (wp_mapError_ok (wp_authenticate_resolved claims))
    (fun user s' _ hresolved => hf user s' (hresolved user rfl)) fun _ _ _ _ => nofun

/-- **Every request checks its token first.** -/
theorem wp_admission (r : Request) :
    (admissionLogic d.platform G).wp p r (Request.code d r) (AdmittedIfWell d.platform p r) s := by
  cases hr : r.claims with
  | none =>
    refine Logic.wp_mono (Logic.wp_of_pre (fun {q s} _ claims hclaims => ?_) _ _)
      fun _ _ _ _ _ _ claims hclaims => ?_
    · rw [hr] at hclaims
      cases hclaims
    · rw [hr] at hclaims
      cases hclaims
  | some claims =>
    have hclaims := hr
    cases r with
    | authenticate claims' =>
      cases hr
      refine Logic.wp_mono (wp_authenticate_resolved claims) fun y s' _ h user hy claims' heq => ?_
      cases heq
      exact (h user hy).admitted
    | change_password claims' current_password new_password =>
      cases hr
      refine wp_authenticate_bind fun user s₁ hresolved => ?_
      exact Logic.wp_mono (wp_of_admitted hclaims hresolved.admitted nofun _)
        fun _ _ _ h _ _ => h
    | as_admin claims' op =>
      cases hr
      refine wp_authenticate_bind fun user s₁ hresolved => ?_
      unfold require_role
      split
      · next hadmin =>
        exact Logic.wp_mono (wp_of_admitted hclaims hresolved.admitted
          (fun _ => hresolved.admin hadmin) _) fun _ _ _ h _ _ => h
      · exact fun _ _ _ => nofun
    | _ => cases hr

end Scripts

/-! ### Every run -/

/-- The session of the token is there, and live. -/
def Database.SessionLive (db : Database) (claims : AccessClaims) : Prop :=
  ∃ row ∈ db.sessions.rows, row.id = claims.sid ∧ row.user_id = claims.sub ∧
    row.revoked_at = none ∧ db.clock < row.expires_at

/-- The account is there, and not disabled. -/
def Database.Enabled (db : Database) (user_id : Uuid) : Prop :=
  ∃ user ∈ db.users.rows, user.id = user_id ∧ user.status ≠ .disabled

/-- At some moment between the two worlds. -/
def AtSomeMoment (d : Deployment) (w₀ w : World) (φ : Database → Prop) : Prop :=
  ∃ w₁, Reaches d anything w₀ w₁ ∧ Reaches d anything w₁ w ∧ φ w₁.shared.db

section Run

variable {d : Deployment} {db : Database} {w₀ w w' : World} {p : ℕ} {claims : AccessClaims}

theorem admission_safe (db : Database) :
    (admissionLogic d.platform anything).Safe (fun p r y s => AdmittedIfWell d.platform p r y s)
      (World.start db) := .start trivial

/-- What a process has been answered since it arrived was so at some moment since then. -/
theorem moment_of_mem (h₀ : Reaches d anything (World.start db) w₀) (hnew : w₀.procs p = none)
    (h : Reaches d anything w₀ w) {φ : Database → Prop} {e : Event} (he : e ∈ w.shared.log)
    (hp : e.pid = p) (hφ : φ e.before) : AtSomeMoment d w₀ w φ := by
  subst hp
  obtain ⟨w₁, hto, hbefore, hfrom⟩ := h.visits_of_mem (mem_since_of_new h₀ h hnew he)
  exact ⟨w₁, hto, hfrom, hbefore ▸ hφ⟩

theorem moment_timely (h₀ : Reaches d anything (World.start db) w₀) (hnew : w₀.procs p = none)
    (h : Reaches d anything w₀ w) (hadmitted : Admitted d.platform p claims w.shared.log) :
    AtSomeMoment d w₀ w fun db =>
      d.platform.is_current claims.exp (unix_time db.clock) LEEWAY_SECONDS := by
  obtain ⟨r, before, now, hmem, hcurrent⟩ := hadmitted.timely
  obtain ⟨c, db', hrun⟩ := (h₀.trans h).answered _ hmem _ rfl
  have hnow : now = before.clock := (Except.ok.inj (congrArg Prod.snd (Option.some.inj hrun))).symm
  exact moment_of_mem h₀ hnew h hmem rfl (hnow ▸ hcurrent)

theorem moment_live (h₀ : Reaches d anything (World.start db) w₀) (hnew : w₀.procs p = none)
    (h : Reaches d anything w₀ w) (hadmitted : Admitted d.platform p claims w.shared.log) :
    AtSomeMoment d w₀ w fun db => db.SessionLive claims := by
  obtain ⟨r, before, hmem⟩ := hadmitted.active
  obtain ⟨c, db', hrun⟩ := (h₀.trans h).answered _ hmem _ rfl
  have hactive := Except.ok.inj (congrArg Prod.snd (Option.some.inj hrun))
  obtain ⟨row, hrow, hlive⟩ := List.any_eq_true.mp hactive
  simp only [Bool.and_eq_true, beq_iff_eq, Option.isNone_iff_eq_none, decide_eq_true_eq] at hlive
  exact moment_of_mem h₀ hnew h hmem rfl
    ⟨row, hrow, hlive.1.1.1, hlive.1.1.2, hlive.1.2, hlive.2⟩

theorem moment_enabled (h₀ : Reaches d anything (World.start db) w₀) (hnew : w₀.procs p = none)
    (h : Reaches d anything w₀ w) (hadmitted : Admitted d.platform p claims w.shared.log) :
    AtSomeMoment d w₀ w fun db => db.Enabled claims.sub := by
  obtain ⟨r, before, user, hmem, henabled⟩ := hadmitted.enabled
  obtain ⟨c, db', hrun⟩ := (h₀.trans h).answered _ hmem _ rfl
  have hfind := Except.ok.inj (congrArg Prod.snd (Option.some.inj hrun))
  obtain ⟨huser, hid⟩ := Table.find?_eq_some.mp hfind
  exact moment_of_mem h₀ hnew h hmem rfl ⟨user, huser, hid, henabled⟩

theorem moment_admin (h₀ : Reaches d anything (World.start db) w₀) (hnew : w₀.procs p = none)
    (h : Reaches d anything w₀ w) (hadmin : SeenAdmin p claims w.shared.log) :
    AtSomeMoment d w₀ w fun db => db.hasRole claims.sub .admin := by
  obtain ⟨r, before, roles, hmem, hrole⟩ := hadmin
  obtain ⟨c, db', hrun⟩ := (h₀.trans h).answered _ hmem _ rfl
  have hroles := Except.ok.inj (congrArg Prod.snd (Option.some.inj hrun))
  rw [← hroles] at hrole
  exact moment_of_mem h₀ hnew h hmem rfl (List.mem_filter.mp hrole).2

/-- **Whoever changes something was admitted.** -/
theorem admitted_of_change (h : Reaches d anything (World.start db) w)
    {proc : Interleave.Proc Stmt.Reply Failure Request.Err Request.Res}
    (hproc : w.procs p = some proc) (hclaims : proc.req.claims = some claims) {c : Choice}
    (hact : w.act (store d.platform) (Request.code d) (.step p c) = some w')
    (hchanged : w'.shared.db ≠ w.shared.db) :
    Admitted d.platform p claims w.shared.log ∧
      (proc.req.for_admins = true → SeenAdmin p claims w.shared.log) := by
  have hsafe := Logic.safe_of_reaches (fun _ r _ _ _ _ => wp_admission r) (admission_safe db) h
  simp only [Interleave.World.act] at hact
  split at hact
  · next r q k hcall =>
    obtain ⟨⟨db', x⟩, hrun, rfl⟩ := Option.map_eq_some_iff.mp hact
    obtain rfl : proc = ⟨r, some (.call q k)⟩ := Option.some.inj (hproc.symm.trans hcall)
    have hpre : AdmissionPre d.platform p r q w.shared :=
      (hsafe.code p r _ hcall w.shared (.refl hsafe.inv)).1
    refine (hpre claims hclaims).resolve_left fun hlooks => ?_
    exact hchanged (Stmt.db_of_looks hlooks hrun)
  · cases hact

/-- Whoever has ended well was admitted. -/
theorem admitted_of_returned (h : Reaches d anything (World.start db) w) {r : Request} {a : r.Res}
    (hreturned : w.Returned p r a) (hclaims : r.claims = some claims) :
    Admitted d.platform p claims w.shared.log :=
  (Logic.safe_of_reaches (fun _ r _ _ _ _ => wp_admission r) (admission_safe db) h).of_returned
    hreturned a rfl claims hclaims

/-- **A change is preceded by everything that admits to it.** Whenever a request that presents an
access token changes anything, there was a moment since it arrived at which the token had not
expired for longer than the leeway (in whole seconds, as the library is documented to count), one
at which its session was live, one at which its account was there and not disabled, and, if it is
a request for administrators, one at which the account was one. -/
theorem changed_as_admitted
    (hcurrent : ∀ exp now leeway, d.platform.is_current exp now leeway → now - leeway ≤ exp)
    (h₀ : Reaches d anything (World.start db) w₀)
    (hnew : w₀.procs p = none) (h : Reaches d anything w₀ w)
    {proc : Interleave.Proc Stmt.Reply Failure Request.Err Request.Res}
    (hproc : w.procs p = some proc) (hclaims : proc.req.claims = some claims) {c : Choice}
    (hact : w.act (store d.platform) (Request.code d) (.step p c) = some w')
    (hchanged : w'.shared.db ≠ w.shared.db) :
    AtSomeMoment d w₀ w (fun db => unix_time db.clock - LEEWAY_SECONDS ≤ claims.exp) ∧
      AtSomeMoment d w₀ w (fun db => db.SessionLive claims) ∧
      AtSomeMoment d w₀ w (fun db => db.Enabled claims.sub) ∧
      (proc.req.for_admins = true →
        AtSomeMoment d w₀ w fun db => db.hasRole claims.sub .admin) := by
  obtain ⟨hadmitted, hadmin⟩ := admitted_of_change (h₀.trans h) hproc hclaims hact hchanged
  obtain ⟨w₁, hto, hfrom, htimely⟩ := moment_timely h₀ hnew h hadmitted
  exact ⟨⟨w₁, hto, hfrom, hcurrent _ _ _ htimely⟩, moment_live h₀ hnew h hadmitted,
    moment_enabled h₀ hnew h hadmitted, fun hr => moment_admin h₀ hnew h (hadmin hr)⟩

/-- An administrator is about to disable account 8. -/
def disablesAda : List Step :=
  [.spawn 1 (.as_admin ⟨9, 19, 100⟩ (.set_status 8 .disabled)), .step 1 {}, .step 1 {}, .step 1 {},
    .step 1 {}]

/-- The account is disabled, by somebody who was admitted to it. -/
theorem changed_as_admitted_disablesAda :
    let w := Deployment.sample.play anything disablesAda .sample
    ∃ w', w.act (store .sample) (Request.code .sample) (.step 1 {}) = some w' ∧
      w'.shared.db.users.rows.map (·.status) = [.disabled, .active] ∧
      AtSomeMoment .sample (World.start .sample) w (fun db => unix_time db.clock - 5 ≤ (100 : ℤ)) ∧
      AtSomeMoment .sample (World.start .sample) w (fun db => db.SessionLive ⟨9, 19, 100⟩) ∧
      AtSomeMoment .sample (World.start .sample) w fun db => db.hasRole 9 .admin := by
  intro w
  have hacts : ∃ w', w.act (store .sample) (Request.code .sample) (.step 1 {}) = some w' ∧
      w'.shared.db.users.rows.map (·.status) = [.disabled, .active] := ⟨_, rfl, by decide +kernel⟩
  obtain ⟨w', hact, hdisabled⟩ := hacts
  obtain ⟨proc, hproc, hreq⟩ : ∃ proc, w.procs 1 = some proc ∧
      proc.req = .as_admin ⟨9, 19, 100⟩ (.set_status 8 .disabled) := ⟨_, rfl, rfl⟩
  have hchanged : w'.shared.db ≠ w.shared.db := by
    intro heq
    have hactive : w.shared.db.users.rows.map (·.status) = [.active, .active] := by decide +kernel
    rw [heq, hactive] at hdisabled
    cases hdisabled
  have hcurrent : ∀ exp now leeway,
      Deployment.sample.platform.is_current exp now leeway → now - leeway ≤ exp :=
    fun _ _ _ h => of_decide_eq_true h
  obtain ⟨htimely, hlive, -, hadmin⟩ := changed_as_admitted hcurrent .refl rfl
    (Deployment.sample.reaches_play anything disablesAda _) hproc (by rw [hreq]; rfl) hact hchanged
  exact ⟨w', hact, hdisabled, htimely, hlive, hadmin (by rw [hreq]; rfl)⟩

end Run

end SubmitSnap
