import SubmitSnap.Scopes
import SubmitSnap.Form.Claiming
import SubmitSnap.Tenant.Thing

/-!
# What a request has been told

A request does not make up the things it writes about. It enters them itself, under an id or a key
that nobody has had before, or it has seen them in a row, next to the organization they belong to.
This is a precondition on statements, and every request meets it: a submission repeats the
organization of the form it has found, a delivery that of the form the submission is of, and so on.

A claim of uploads has the longest way to go. What it knows of an upload is its object; of the
object, that the ledger has it under the form; and of the form, that it was found.

## The argument

`Told` speaks of the log, and the log only grows; what a request has been told once it may go by
for the rest of its life. So the proof for a handler is a walk through its code in which every
answer adds something that is told. Nothing is asked of the database at the moment of the write:
that what was told is still true there, in every database of the run, is the theorem this is for.

## Main definitions

* `entersThing`, `Told` — what an event makes, and what the trace says about a thing.
* `TenantPre`, `tenantLogic` — a statement keeps to what the trace says.

## Main results

* `wp_told` — every request keeps to what it has been told.
-/

namespace SubmitSnap

open Interleave
open Interleave.Script

/-- The event makes the row that the thing is. -/
def entersThing (thing : Thing) (o : Uuid) : Event → Prop
  | ⟨_, _, _, .forms (.create _ _ _ _ _), .ok form⟩ =>
    thing = .form form.id ∧ form.organization_id = o
  | ⟨_, _, _, .submissions (.insert _ _), .ok answer⟩ =>
    thing = .submission answer.1.id ∧ answer.1.organization_id = o
  | ⟨_, _, _, .uploads (.insert _), .ok row⟩ =>
    (thing = .upload row.id ∨ thing = .object row.object_key) ∧ row.organization_id = o
  | ⟨_, _, _, .webhooks (.create_endpoint _ _ _ _ _), .ok row⟩ =>
    thing = .endpoint row.id ∧ row.organization_id = o
  | _ => False

/-- The trace says that the thing belongs to the organization. -/
def Told (thing : Thing) (o : Uuid) (log : List Event) : Prop :=
  ∃ e ∈ log, entersThing thing o e ∨ Places e.before thing o

/-- The trace says that the two things belong to one organization. -/
def Together (thing thing' : Thing) (log : List Event) : Prop :=
  ∃ o, Told thing o log ∧ Told thing' o log

/-- The key that a statement uses up: of an object, or of a form. -/
def Stmt.key : Stmt → Option String
  | uploads (.insert upload) => some upload.object_key
  | forms (.create _ _ public_id _ _) | forms (.set_public_id _ _ public_id) => some public_id
  | _ => none

/-- A key is given by the generator, and used by the row that gets it. -/
def keyNames : Naming Event String where
  gives := generatesKey
  uses p key e := e.pid = p ∧ e.stmt.key = some key ∧ ∃ a, e.reply = .ok a

/-- A key that was issued before the trace began. -/
def oldKey (db₀ : Database) (key : String) : Prop := key ∈ db₀.issued_keys

/-- Every key is given once, and used by whoever it was given to. -/
abbrev KeysFresh (db₀ : Database) (s : State) : Prop :=
  keyNames.Fresh (oldKey db₀) (· ∈ s.db.issued_keys) s.log

/-- A write keeps to what the trace says. -/
def Write.Told (log : List Event) : Write → Prop
  | .submission row => ∀ thing ∈ Tenanted.things row, SubmitSnap.Told thing row.organization_id log
  | .outbox_event ev => ∀ thing ∈ Tenanted.things ev, SubmitSnap.Told thing ev.organization_id log
  | .claim_uploads ids submission_id => ∀ id ∈ ids, ∃ key form_id,
    Together (.upload id) (.object key) log ∧ Together (.object key) (.form form_id) log ∧
      Together (.form form_id) (.submission submission_id) log
  | _ => True

/-- A statement keeps to what the trace says, and uses keys of its own. -/
def TenantPre (p : ℕ) (s : State) : Stmt → Prop
  | .forms (.create _ _ public_id _ _) | .forms (.set_public_id _ _ public_id) =>
    keyNames.Held p public_id s.log
  | .uploads (.insert upload) => keyNames.Held p upload.object_key s.log ∧
    Told (.form upload.form_id) upload.organization_id s.log
  | .webhooks (.create_endpoint organization_id form_id _ _ _) =>
    ∀ id ∈ form_id, Told (.form id) organization_id s.log
  | .webhooks (.update_endpoint organization_id _ changes) =>
    ∀ id ∈ changes.form_id.join, Told (.form id) organization_id s.log
  | .webhooks (.fan_out_insert organization_id submission_id _ endpoints) =>
    (∃ form_id, Together (.submission submission_id) (.form form_id) s.log ∧
      Told (.form form_id) organization_id s.log) ∧
    ∀ id ∈ endpoints, Told (.endpoint id) organization_id s.log
  | .commit writes => ∀ w ∈ writes, w.Told s.log
  | _ => True

/-- The logic of requests that keep to what they have been told. -/
def tenantLogic (P : Platform) (G : Regime) : Logic G (store P) :=
  .ofPre fun p _ q s => TenantPre p s q

/-- Statements that may be executed at any time. -/
def TenantFree (q : Stmt) : Prop := ∀ p s, TenantPre p s q

section Facts

variable {P : Platform} {G : Regime} {p p' : ℕ} {r : Request} {q : Stmt} {s s' : State}
  {x : Except Failure q.Reply} {thing thing' : Thing} {o : Uuid} {key : String}
  {log log' : List Event}

theorem Told.mono (h : Told thing o log) (hlog : ∀ e ∈ log, e ∈ log') : Told thing o log' := by
  obtain ⟨e, he, htold⟩ := h
  exact ⟨e, hlog e he, htold⟩

theorem Together.mono (h : Together thing thing' log) (hlog : ∀ e ∈ log, e ∈ log') :
    Together thing thing' log' := by
  obtain ⟨o, htold, htold'⟩ := h
  exact ⟨o, htold.mono hlog, htold'.mono hlog⟩

theorem Write.Told.mono {w : Write} (h : w.Told log) (hlog : ∀ e ∈ log, e ∈ log') :
    w.Told log' := by
  cases w with
  | submission row => exact fun thing hthing => (h thing hthing).mono hlog
  | outbox_event ev => exact fun thing hthing => (h thing hthing).mono hlog
  | claim_uploads ids submission_id =>
    intro id hid
    obtain ⟨key, form_id, hupload, hobject, hform⟩ := h id hid
    exact ⟨key, form_id, hupload.mono hlog, hobject.mono hlog, hform.mono hlog⟩
  | _ => trivial

/-- Whoever reads a row is told what it says. -/
theorem told_of_effect (hx : G.Effect (store P) p r q s x s') (hm : Places s.db thing o) :
    Told thing o s'.log :=
  ⟨_, hx.mem_self, .inr hm⟩

theorem pid_of_usesKey {e : Event} (h : keyNames.uses p key e) : e.pid = p := h.1

theorem keyNames_held_of_others (h : Others p s s') :
    keyNames.Held p key s'.log ↔ keyNames.Held p key s.log :=
  h.since_iff (fun _ => pid_of_generatesKey) fun _ => pid_of_usesKey

/-- A key is kept over a statement that uses none. -/
theorem held_of_effect (h : keyNames.Held p key s.log)
    (hx : G.Effect (store P) p r q s x s') (hq : q.key = none) : keyNames.Held p key s'.log := by
  rw [Naming.Held, hx.log_eq]
  refine .inr ⟨fun huses => ?_, h⟩
  cases hq.symm.trans huses.2.1

/-- A key that is used was held. -/
theorem TenantPre.held (hpre : TenantPre p s q) (hkey : q.key = some key) :
    keyNames.Held p key s.log := by
  cases q with
  | forms q =>
    cases q with
    | create _ _ _ _ _ | set_public_id _ _ _ =>
      cases hkey
      exact hpre
    | _ => cases hkey
  | uploads q =>
    cases q with
    | insert upload =>
      cases hkey
      exact hpre.1
    | _ => cases hkey
  | _ => cases hkey

/-- **The keys stay fresh**: what one statement preserves. A key that is generated has not been
issued, and a statement that uses one was given it and has not used it yet, by its precondition.
-/
theorem KeysFresh.effect {db₀ : Database} (hs : KeysFresh db₀ s) (hpre : TenantPre p s q)
    (h : G.Effect (store P) p r q s x s') : KeysFresh db₀ s' := by
  cases h with
  | fail _ =>
    refine hs.idle (fun _ => id) (fun p' key hgives => idle_of_error.1 p' key hgives)
      fun p' key huses => ?_
    obtain ⟨-, -, a, heq⟩ := huses
    cases heq
  | run _ hrun =>
    refine hs.cons (fun _ => Stmt.issued_keys_mono hrun) (fun p' key hgives => ?_)
      fun p' key huses => ?_
    · obtain ⟨rfl, hnew, hkeys⟩ := Stmt.generates hrun hgives
      exact ⟨hnew, hkeys ▸ List.mem_cons_self, fun p' hgives' => (pid_of_generatesKey hgives').symm⟩
    · obtain ⟨rfl, hkey, -⟩ := huses
      exact hpre.held hkey

theorem held_of_generate (hx : G.Effect (store P) p r .generate_key s (.ok key) s') :
    keyNames.Held p key s'.log := by
  rw [Naming.Held, hx.log_eq]
  exact .inl ⟨rfl, rfl⟩

end Facts

/-! ### The scripts

For each handler: which of its answers tells it what it needs, and which of its statements needs
it. The scripts that write nothing about things are free. -/

section Scripts

variable {P : Platform} {d : Deployment} {G : Regime} {p : ℕ} {r : Request} {s s' : State}
  {ε α : Type}

theorem wp_of_tenantFree {x : Code ε α} (hx : x.Issues TenantFree) :
    (tenantLogic P G).wp p r x (fun _ _ => True) s :=
  Logic.wp_of_does TenantFree (fun _ _ => True) (fun _ => True) (fun _ => True)
    (fun _ _ => trivial) (fun hq _ _ => hq _ _) (fun _ _ _ _ _ => ⟨trivial, trivial⟩)
    (fun _ _ => trivial) hx.does trivial

/-! #### The public side of a form -/

theorem wp_load_published_told (public_id : String) :
    (tenantLogic P G).wp p r (FormService.load_published public_id)
    (fun y s' => ∀ form, y = .ok form →
      Told (.form form.id) form.organization_id s'.log) s := by
  refine Logic.wp_query_bind fun s₁ he₁ =>
    ⟨trivial, fun found s₂ hx₂ _ => ?_, fun _ _ _ _ _ _ => nofun⟩
  cases found with
  | none => exact fun _ _ => nofun
  | some form =>
    obtain ⟨-, c, db, hrun, -⟩ := hx₂.of_ok
    have hfind : (s₁.db.forms.rows.find? fun f => f.public_id == public_id) = some form :=
      Except.ok.inj (congrArg Prod.snd (Option.some.inj hrun))
    have hplaces : Places s₁.db (.form form.id) form.organization_id :=
      .form (List.mem_of_find?_eq_some hfind) (List.mem_singleton.mpr rfl)
    dsimp only
    split
    · intro s₃ he₃ form' heq
      cases heq
      exact (told_of_effect hx₂ hplaces).mono fun _ => he₃.others.mem
    · exact fun _ _ => nofun
    · exact fun _ _ => nofun

variable {n : NewSubmission}

/-- The insert of a submission, and what a transaction does with its answer. -/
theorem wp_insert_told {now : Timestamp} (files : Option (List (String × FileMetadata)))
    {rest : SubmissionRecord × Option OutboxEvent → Code FormError Uuid}
    (hform : Told (.form n.form_id) n.organization_id s.log)
    (hrest : ∀ row event s', (∀ w ∈ FormService.submission_writes row event, w.Told s'.log) →
      Told (.submission row.id) n.organization_id s'.log → (∀ e ∈ s.log, e ∈ s'.log) →
      (tenantLogic P G).wp p r (rest (row, event)) (fun _ _ => True) s') :
    (tenantLogic P G).wp p r
      (ask (.submissions (.insert { n with files := files } now)) >>= rest)
      (fun _ _ => True) s := by
  refine Logic.wp_query_bind fun s₁ he₁ => ⟨trivial, fun answer s₂ hx₂ _ => ?_,
    fun _ _ _ _ _ _ => trivial⟩
  have hgrows : ∀ e ∈ s.log, e ∈ s₂.log := fun e he => hx₂.mem (he₁.others.mem he)
  have hentered : ∀ o, answer.1.organization_id = o → Told (.submission answer.1.id) o s₂.log :=
    fun o ho => ⟨_, hx₂.mem_self, .inl ⟨rfl, ho⟩⟩
  obtain ⟨-, c, db, hrun, -⟩ := hx₂.of_ok
  rcases of_run_insert hrun with ⟨e, -, heq, -⟩ | ⟨-, -, heq, -⟩ <;> cases heq
  have hsubmission := hentered _ rfl
  have hform₂ := hform.mono hgrows
  refine hrest _ _ _ (fun w hw => ?_) hsubmission hgrows
  -- The row and its event are about the new submission and the form that was found.
  have hthings : ∀ thing ∈ [.submission c.id, .form n.form_id],
      Told thing n.organization_id s₂.log := by
    intro thing hthing
    simp only [List.mem_cons, List.not_mem_nil, or_false] at hthing
    rcases hthing with rfl | rfl
    · exact hsubmission
    · exact hform₂
  rcases List.mem_cons.mp hw with rfl | hw
  · exact hthings
  · obtain ⟨ev, hev, rfl⟩ := List.mem_map.mp hw
    rw [NewSubmission.queued, Option.mem_toList] at hev
    split at hev <;> cases hev
    exact hthings

theorem wp_commit_told {writes : List Write} {id : Uuid} (h : ∀ w ∈ writes, w.Told s.log) :
    (tenantLogic P G).wp p r (ask (.commit writes) >>= fun _ => .ret id : Code FormError Uuid)
      (fun _ _ => True) s := by
  refine Logic.wp_query_bind fun s₁ he₁ => ⟨fun w hw => ?_, fun _ _ _ _ _ _ => trivial,
    fun _ _ _ _ _ _ => trivial⟩
  exact (h w hw).mono fun _ => he₁.others.mem

theorem wp_transaction_told {body : Timestamp → Code FormError Uuid}
    (hbody : ∀ now s', (∀ e ∈ s.log, e ∈ s'.log) →
      (tenantLogic P G).wp p r (body now) (fun _ _ => True) s') :
    (tenantLogic P G).wp p r (transaction body) (fun _ _ => True) s :=
  wp_transaction_post (fun _ => trivial) (fun _ => trivial) trivial
    (fun _ now s₂ he₁ hx₂ _ => hbody now s₂ fun _ he => hx₂.mem (he₁.others.mem he))
    (fun _ _ _ _ _ _ _ => trivial) fun _ _ _ _ _ _ _ _ _ _ => trivial

theorem wp_insert_submission_told (hform : Told (.form n.form_id) n.organization_id s.log) :
    (tenantLogic P G).wp p r (FormService.insert_submission n) (fun _ _ => True) s :=
  wp_transaction_told fun _ _ hgrows => wp_insert_told n.files (hform.mono hgrows)
    fun _ _ _ hwrites _ _ => wp_commit_told hwrites

theorem wp_insert_claiming_files_told (hform : Told (.form n.form_id) n.organization_id s.log)
    (answers : List (String × String)) :
    (tenantLogic P G).wp p r (FormService.insert_claiming_files n answers) (fun _ _ => True) s := by
  refine wp_transaction_told fun now s₁ hgrows₁ => ?_
  refine Logic.wp_query_bind fun s₂ he₂ => ⟨trivial, fun recorded s₃ hx₃ _ => ?_,
    fun _ _ _ _ _ _ => trivial⟩
  have hgrows₃ : ∀ e ∈ s.log, e ∈ s₃.log :=
    fun e he => hx₃.mem (he₂.others.mem (hgrows₁ e he))
  -- What the ledger has locked is the form's.
  have hrecorded : ∀ u ∈ recorded, Together (.object u.object_key) (.form n.form_id) s₃.log := by
    obtain ⟨-, c, db, hrun, -⟩ := hx₃.of_ok
    obtain ⟨heq, -⟩ := of_run_lock_for_claim (c := c) hrun
    cases heq
    intro u hu
    obtain ⟨hmem, hsel⟩ := List.mem_filter.mp ((List.mem_insertionSort _).mp hu)
    simp only [Bool.and_eq_true, beq_iff_eq] at hsel
    refine ⟨u.organization_id, told_of_effect hx₃ (.upload hmem ?_),
      told_of_effect hx₃ (.upload hmem ?_)⟩
    · simp [Tenanted.things]
    · simp [Tenanted.things, hsel.1]
  cases hcheck : check_file_references recorded answers with
  | error e => exact fun _ _ => trivial
  | ok metadata =>
    have hkeys : ∀ key ∈ answers.map (·.2),
        Together (.object key) (.form n.form_id) s₃.log := by
      intro key hkey
      obtain ⟨hanswers, hfiles⟩ := check_file_references_ok hcheck
      rw [← hanswers] at hkey
      obtain ⟨answer, hanswer, rfl⟩ := List.mem_map.mp hkey
      obtain ⟨file, hfile, rfl⟩ := List.mem_map.mp hanswer
      obtain ⟨u, hu, -, -, hmetadata⟩ := hfiles file hfile
      have hobject : u.object_key = file.2.key := congrArg FileMetadata.key hmetadata
      exact hobject ▸ hrecorded u hu
    refine wp_insert_told _ (hform.mono hgrows₃)
      fun row event s₄ hwrites hsubmission hgrows₄ => ?_
    refine Logic.wp_query_bind fun s₅ he₅ => ⟨trivial, fun claimed s₆ hx₆ _ => ?_,
      fun _ _ _ _ _ _ => trivial⟩
    have hgrows₆ : ∀ e ∈ s₄.log, e ∈ s₆.log := fun e he => hx₆.mem (he₅.others.mem he)
    split
    · exact fun _ _ => trivial
    refine wp_commit_told fun w hw => ?_
    rcases List.mem_append.mp hw with hw | hw
    · exact (hwrites w hw).mono hgrows₆
    obtain rfl := List.mem_singleton.mp hw
    intro id hid
    obtain ⟨-, c, db, hrun, -⟩ := hx₆.of_ok
    obtain ⟨heq, -⟩ := of_run_claim (c := c) hrun
    cases heq
    obtain ⟨u, hu, rfl⟩ := List.mem_map.mp hid
    obtain ⟨hmem, hsel⟩ := List.mem_filter.mp hu
    simp only [Bool.and_eq_true, decide_eq_true_eq] at hsel
    refine ⟨u.object_key, n.form_id, ⟨u.organization_id, told_of_effect hx₆ (.upload hmem ?_),
      told_of_effect hx₆ (.upload hmem ?_)⟩, (hkeys _ hsel.1).mono fun e he =>
        hgrows₆ e (hgrows₄ e he),
      n.organization_id, (hform.mono hgrows₃).mono fun e he => hgrows₆ e (hgrows₄ e he),
      hsubmission.mono hgrows₆⟩
    · simp [Tenanted.things]
    · simp [Tenanted.things]

theorem wp_submit_told (public_id : String) (payload : Map) (client : ClientInfo)
    (referer : Option String) :
    (tenantLogic d.platform G).wp p r (FormService.submit d public_id payload client referer)
      (fun _ _ => True) s := by
  refine Logic.wp_bind trivial (wp_load_published_told public_id) (fun form s₁ _ hfound => ?_)
    fun _ _ _ _ => trivial
  have hform := hfound form rfl
  refine Logic.wp_query_bind fun s₂ he₂ => ⟨trivial, fun allowed s₃ hx₃ _ => ?_,
    fun _ _ _ _ _ _ => trivial⟩
  have hform₃ := hform.mono fun e he => hx₃.mem (he₂.others.mem he)
  split
  · exact fun _ _ => trivial
  split
  · exact fun _ _ => trivial
  dsimp only
  split
  · exact Logic.wp_seq trivial (wp_insert_submission_told hform₃) fun _ _ _ _ _ => trivial
  · exact Logic.wp_seq trivial (wp_insert_claiming_files_told hform₃ _) fun _ _ _ _ _ => trivial

/-- Statements that use no key, and may be executed at any time. -/
def KeyIdle (q : Stmt) : Prop := TenantFree q ∧ q.key = none

/-- The key of an object is kept while it is being written, and what was found is not forgotten. -/
theorem wp_of_keyIdle {key : String} {thing : Thing} {o : Uuid} {x : Code ε α}
    (hx : x.Issues KeyIdle)
    (hs : keyNames.Held p key s.log ∧ Told thing o s.log) :
    (tenantLogic P G).wp p r x
      (fun _ s' => keyNames.Held p key s'.log ∧ Told thing o s'.log) s :=
  Logic.wp_of_does KeyIdle (fun _ _ => True)
    (fun s' => keyNames.Held p key s'.log ∧ Told thing o s'.log) (fun _ => True)
    (fun hK he => ⟨(keyNames_held_of_others he.others).mpr hK.1, hK.2.mono fun _ => he.others.mem⟩)
    (fun hq _ _ => hq.1 _ _)
    (fun hq _ hK hx _ => ⟨trivial, held_of_effect hK.1 hx hq.2, hK.2.mono fun _ => hx.mem⟩)
    (fun _ hK => hK) hx.does hs

theorem wp_upload_told (public_id field_key : String) (filename declared_type : Option String)
    (body : List Chunk) : (tenantLogic P G).wp p r
      (FormService.upload d public_id field_key filename declared_type body)
      (fun _ _ => True) s := by
  unfold FormService.upload
  split
  · exact fun _ _ => trivial
  refine Logic.wp_bind trivial (wp_load_published_told public_id) (fun form s₁ _ hfound => ?_)
    fun _ _ _ _ => trivial
  have hform := hfound form rfl
  refine Logic.wp_query_bind fun s₂ he₂ => ⟨trivial, fun allowed s₃ hx₃ _ => ?_,
    fun _ _ _ _ _ _ => trivial⟩
  have hform₃ := hform.mono fun e he => hx₃.mem (he₂.others.mem he)
  split
  · exact fun _ _ => trivial
  cases FormService.upload_target form field_key declared_type with
  | error e => exact fun _ _ => trivial
  | ok target =>
    obtain ⟨field, declared⟩ := target
    refine Logic.wp_query_bind fun s₄ he₄ => ⟨trivial, fun key s₅ hx₅ _ => ?_,
      fun _ _ _ _ _ _ => trivial⟩
    have hs₅ : keyNames.Held p key s₅.log ∧ Told (.form form.id) form.organization_id s₅.log :=
      ⟨held_of_generate hx₅, hform₃.mono fun e he => hx₅.mem (he₄.others.mem he)⟩
    have hidle : ∀ {q : Stmt}, (∀ p s, TenantPre p s q) → q.key = none → KeyIdle q :=
      fun hfree hkey => ⟨hfree, hkey⟩
    refine Logic.wp_bind trivial (wp_of_keyIdle
      (issues_query (hidle (fun _ _ => trivial) rfl)) hs₅) (fun _ s₆ _ hs₆ => ?_)
      fun _ _ _ _ => trivial
    refine Logic.wp_bind trivial (wp_of_keyIdle (FormService.stream_upload_issues
      (fun _ => hidle (fun _ _ => trivial) rfl) _ _ _ _).result hs₆) (fun y s₇ _ hs₇ => ?_)
      fun _ _ _ _ => trivial
    cases y with
    | error e =>
      exact Logic.wp_attempt_bind fun _ _ => ⟨trivial, fun _ _ _ _ _ _ => trivial⟩
    | ok size =>
      refine Logic.wp_bind trivial (wp_of_keyIdle (FormService.finish_issues
        (hidle (fun _ _ => trivial) rfl) (hidle (fun _ _ => trivial) rfl)
        (hidle (fun _ _ => trivial) rfl)) hs₇) (fun _ s₈ _ hs₈ => ?_) fun _ _ _ _ => trivial
      refine Logic.wp_attempt_bind fun s₉ he₉ => ⟨⟨(keyNames_held_of_others he₉.others).mpr hs₈.1,
        hs₈.2.mono fun _ => he₉.others.mem⟩, fun y s₁₀ _ _ => ?_⟩
      cases y with
      | ok row => exact fun _ _ => trivial
      | error e =>
        exact Logic.wp_attempt_bind fun _ _ => ⟨trivial, fun _ _ _ _ _ _ => trivial⟩

/-! #### Forms and endpoints -/

theorem wp_create_form_told (organization_id : Uuid) (request : CreateFormRequest)
    (actor_id : Uuid) : (tenantLogic P G).wp p r
      (FormService.create d organization_id request actor_id) (fun _ _ => True) s := by
  refine Logic.wp_seq trivial (wp_of_tenantFree
    (FormService.manager_access_issues fun _ _ => trivial)) fun _ s₁ _ => ?_
  generalize check_schema d request.schema false = checked
  refine Logic.wp_seq trivial (wp_of_tenantFree (FormService.require_issues checked))
    fun _ s₂ _ => ?_
  refine Logic.wp_query_bind fun s₃ he₃ => ⟨trivial, fun key s₄ hx₄ _ => ?_,
    fun _ _ _ _ _ _ => trivial⟩
  exact Logic.wp_query fun s₅ he₅ =>
    ⟨(keyNames_held_of_others he₅.others).mpr (held_of_generate hx₄),
    fun _ _ _ _ _ _ => trivial, fun _ _ _ _ _ _ => trivial⟩

theorem get_tenantFree (organization_id form_id actor_id : Uuid) :
    (FormService.get organization_id form_id actor_id).Issues TenantFree :=
  FormService.get_issues (fun _ _ => trivial) fun _ _ => trivial

theorem wp_rotate_public_id_told (organization_id form_id actor_id : Uuid) :
    (tenantLogic P G).wp p r (FormService.rotate_public_id organization_id form_id actor_id)
      (fun _ _ => True) s := by
  refine Logic.wp_seq trivial (wp_of_tenantFree
    (FormService.manager_access_issues fun _ _ => trivial)) fun _ s₁ _ => ?_
  refine Logic.wp_seq trivial (wp_of_tenantFree (FormService.load_issues fun _ _ => trivial))
    fun _ s₂ _ => ?_
  refine Logic.wp_query_bind fun s₃ he₃ => ⟨trivial, fun key s₄ hx₄ _ => ?_,
    fun _ _ _ _ _ _ => trivial⟩
  exact Logic.wp_query_bind fun s₅ he₅ =>
    ⟨(keyNames_held_of_others he₅.others).mpr (held_of_generate hx₄),
    fun _ _ _ _ => wp_of_tenantFree (get_tenantFree organization_id form_id actor_id),
    fun _ _ _ _ _ _ => trivial⟩

/-- A form that an endpoint may be restricted to is one of the organization. -/
theorem wp_ensure_form_told (organization_id : Uuid) (form_id : Option Uuid) :
    (tenantLogic P G).wp p r
      (WebhookService.if_some form_id (WebhookService.ensure_form_belongs_to organization_id))
      (fun y s' => y = .ok () → ∀ id ∈ form_id, Told (.form id) organization_id s'.log) s := by
  cases form_id with
  | none => exact fun _ _ _ id hid => absurd hid (by simp)
  | some form_id =>
    refine Logic.wp_query_bind fun s₁ he₁ => ⟨trivial, fun found s₂ hx₂ _ => ?_,
      fun _ _ _ _ _ _ => nofun⟩
    cases found with
    | false => exact fun _ _ => nofun
    | true =>
      intro s₃ he₃ _ id hid
      cases hid
      obtain ⟨-, c, db, hrun, -⟩ := hx₂.of_ok
      have hany : (s₁.db.forms.rows.any fun f =>
          f.organization_id == organization_id && f.id == form_id) = true :=
        Except.ok.inj (congrArg Prod.snd (Option.some.inj hrun))
      obtain ⟨f, hf, hsel⟩ := List.any_eq_true.mp hany
      simp only [Bool.and_eq_true, beq_iff_eq] at hsel
      obtain ⟨rfl, rfl⟩ := hsel
      have hplaces : Places s₁.db (.form f.id) f.organization_id :=
        .form hf (List.mem_singleton.mpr rfl)
      exact (told_of_effect hx₂ hplaces).mono fun _ => he₃.others.mem

theorem wp_create_endpoint_told (organization_id : Uuid) (request : CreateWebhookEndpointRequest)
    (actor_id : Uuid) : (tenantLogic P G).wp p r
      (WebhookService.create d organization_id request actor_id) (fun _ _ => True) s := by
  refine Logic.wp_seq trivial (wp_of_tenantFree
    (WebhookService.manager_access_issues fun _ _ => trivial)) fun _ s₁ _ => ?_
  generalize check_url request.url d.config.webhook_allow_private_targets = checked
  refine Logic.wp_seq trivial (wp_of_tenantFree (WebhookService.require_issues checked))
    fun _ s₂ _ => ?_
  refine Logic.wp_bind trivial (wp_ensure_form_told organization_id request.form_id)
    (fun _ s₃ _ hform => ?_) fun _ _ _ _ => trivial
  refine Logic.wp_query_bind fun s₄ he₄ => ⟨trivial, fun token s₅ hx₅ _ => ?_,
    fun _ _ _ _ _ _ => trivial⟩
  refine Logic.wp_query_bind fun s₆ he₆ => ⟨fun id hid => ?_, fun _ _ _ _ _ _ => trivial,
    fun _ _ _ _ _ _ => trivial⟩
  exact (hform rfl id hid).mono fun e he => he₆.others.mem (hx₅.mem (he₄.others.mem he))

theorem wp_update_endpoint_told (organization_id id : Uuid) (request : UpdateWebhookEndpointRequest)
    (actor_id : Uuid) : (tenantLogic P G).wp p r
      (WebhookService.update d organization_id id request actor_id) (fun _ _ => True) s := by
  refine Logic.wp_seq trivial (wp_of_tenantFree
    (WebhookService.manager_access_issues fun _ _ => trivial)) fun _ s₁ _ => ?_
  refine Logic.wp_query_bind fun s₂ he₂ => ⟨trivial, fun found s₃ hx₃ _ => ?_,
    fun _ _ _ _ _ _ => trivial⟩
  cases found with
  | none => exact fun _ _ => trivial
  | some endpoint =>
    refine Logic.wp_seq trivial (wp_of_tenantFree (WebhookService.if_some_issues
      fun _ => WebhookService.require_issues _)) fun _ s₄ _ => ?_
    refine Logic.wp_bind trivial (wp_ensure_form_told organization_id request.form_id.join)
      (fun _ s₅ _ hform => ?_) fun _ _ _ _ => trivial
    refine Logic.wp_query_bind fun s₆ he₆ => ⟨fun id hid => ?_, fun updated s₇ _ _ => ?_,
      fun _ _ _ _ _ _ => trivial⟩
    · exact (hform rfl id hid).mono fun _ => he₆.others.mem
    · cases updated <;> exact fun _ _ => trivial

/-! #### The dispatcher

The dispatcher learns from one join where the submission, its form and its organization belong
together, and from one scan which endpoints are of that organization. -/

/-- The source of a notification says where the submission belongs. -/
theorem told_of_source {submission_id : Uuid} {source : NotificationSource}
    (hx : G.Effect (store P) p r (.outbox (.notification_source submission_id)) s
      (.ok (some source)) s') :
    Together (.submission source.submission_id) (.form source.form_id) s'.log ∧
      Told (.form source.form_id) source.organization_id s'.log := by
  obtain ⟨-, c, db, hrun, -⟩ := hx.of_ok
  have hsource := Except.ok.inj (congrArg Prod.snd (Option.some.inj hrun))
  obtain ⟨row, hrow, hrest⟩ := Option.bind_eq_some_iff.mp hsource
  obtain ⟨f, hf, heq⟩ := Option.bind_eq_some_iff.mp hrest
  cases heq
  obtain ⟨hrow, -⟩ := Table.find?_eq_some.mp hrow
  obtain ⟨hf, hid⟩ := Table.find?_eq_some.mp hf
  refine ⟨⟨row.organization_id, told_of_effect hx (.submission hrow ?_),
    told_of_effect hx (.submission hrow ?_)⟩, told_of_effect hx (.form hf ?_)⟩
  · simp [Tenanted.things]
  · simp [Tenanted.things, show f.id = row.form_id from hid]
  · simp [Tenanted.things]

theorem wp_dispatch_submission_told (event : OutboxEvent) :
    (tenantLogic P G).wp p r (Dispatcher.dispatch_submission event) (fun _ _ => True) s := by
  refine Logic.wp_query_bind fun s₁ he₁ => ⟨trivial, fun found s₂ hx₂ _ => ?_,
    fun _ _ _ _ _ _ => trivial⟩
  cases found with
  | none => exact fun _ _ => trivial
  | some source =>
    obtain ⟨htogether, hform⟩ := told_of_source hx₂
    refine Logic.wp_seq trivial ?_ fun _ s₃ _ => wp_of_tenantFree
      (Script.Issues.forEach (fun _ => (issues_query fun _ _ => trivial).bind
        fun _ => issues_query fun _ _ => trivial) _)
    refine Logic.wp_query_bind fun s₃ he₃ => ⟨trivial, fun scan s₄ hx₄ _ => ?_,
      fun _ _ _ _ _ _ => trivial⟩
    obtain ⟨now, endpoints⟩ := scan
    have hgrows : ∀ e ∈ s₂.log, e ∈ s₄.log := fun e he => hx₄.mem (he₃.others.mem he)
    have hendpoints : ∀ id ∈ endpoints, Told (.endpoint id) source.organization_id s₄.log := by
      obtain ⟨-, c, db, hrun, -⟩ := hx₄.of_ok
      cases hrun
      intro id hid
      obtain ⟨e, he, rfl⟩ := List.mem_map.mp hid
      obtain ⟨he, hsel⟩ := List.mem_filter.mp he
      simp only [Bool.and_eq_true, beq_iff_eq] at hsel
      have hplaces : Places s₃.db (.endpoint e.id) e.organization_id :=
        .endpoint he List.mem_cons_self
      exact hsel.1.1 ▸ told_of_effect hx₄ hplaces
    refine Logic.wp_query fun s₅ he₅ => ⟨⟨⟨source.form_id, htogether.mono ?_, hform.mono ?_⟩, ?_⟩,
      fun _ _ _ _ _ _ => trivial, fun _ _ _ _ _ _ => trivial⟩
    · exact fun e he => he₅.others.mem (hgrows e he)
    · exact fun e he => he₅.others.mem (hgrows e he)
    · exact fun id hid => (hendpoints id hid).mono fun _ => he₅.others.mem

theorem wp_dispatch_outbox_told :
    (tenantLogic P G).wp p r (Dispatcher.run_once d) (fun _ _ => True) s := by
  refine Logic.wp_query_bind fun s₁ he₁ => ⟨trivial, fun events s₂ _ _ => ?_,
    fun _ _ _ _ _ _ => trivial⟩
  refine Logic.wp_forEach (fun _ _ => True) (fun event _ s₃ _ _ => ?_) (fun _ _ _ _ => trivial)
    events s₂ trivial trivial
  have hsettle : (tenantLogic P G).wp p r (Dispatcher.settle d event) (fun _ _ => True) s₃ := by
    refine Logic.wp_bind (Ψ := fun _ _ => True) trivial
      (Logic.wp_result (wp_dispatch_submission_told event))
      (fun y s₄ _ _ => ?_) fun _ _ _ _ => trivial
    cases y <;> exact wp_of_tenantFree (issues_query fun _ _ => trivial)
  exact Logic.wp_mono hsettle fun y _ _ _ => by cases y <;> trivial

/-! #### Every request -/

theorem TenantFree.of_onAccounts {q : Stmt} (h : q.onAccounts) : TenantFree q := by
  intro p s
  cases q with
  | commit writes =>
    intro w hw
    have hnot : ¬ w.ofSubmission = true := fun hsubmission => by
      have hany : writes.any Write.ofSubmission = true := List.any_eq_true.mpr ⟨w, hw, hsubmission⟩
      rw [Stmt.onAccounts, hany] at h
      exact h
    cases w with
    | submission _ | outbox_event _ | claim_uploads _ _ => exact absurd rfl hnot
    | _ => trivial
  | forms _ | uploads _ | webhooks _ => exact h.elim
  | _ => trivial

theorem TenantFree.of_onMembership {q : Stmt} {organization_id : Uuid}
    (h : q.onMembership organization_id) : TenantFree q := by
  intro p s
  cases q with
  | commit writes =>
    intro w hw
    have hbelongs : w.belongs_to = some organization_id := h w hw
    cases w with
    | submission _ | outbox_event _ | claim_uploads _ _ => cases hbelongs
    | _ => trivial
  | forms _ | uploads _ | webhooks _ => exact h.elim
  | _ => trivial

theorem wp_membership_told {organization_id : Uuid} {x : Code OrganizationError α}
    (hx : MembershipOf organization_id x) :
    (tenantLogic P G).wp p r x (fun _ _ => True) s :=
  Logic.wp_of_does (Stmt.onMembership organization_id) UpsertsOwn (fun _ => True) (fun _ => True)
    (fun _ _ => trivial) (fun hq _ _ => TenantFree.of_onMembership hq _ _)
    (fun _ _ _ hx _ => ⟨upsertsOwn_of_effect hx, trivial⟩) (fun _ _ => trivial) hx trivial

theorem deliver_webhooks_tenantFree : (WebhookDeliverer.run_once d).Issues TenantFree := by
  refine (issues_query fun _ _ => trivial).bind fun deliveries =>
    Issues.forEach (fun delivery => ?_) deliveries
  refine (issues_attempt fun _ _ => trivial).bind fun answer => ?_
  have hend : ∀ q : Stmt, TenantFree q →
      (do let _ ← attempt q; return () : Code WebhookError Unit).Issues TenantFree :=
    fun q hq => (issues_attempt hq).bind fun _ => issues_ret
  split
  · split <;> exact hend _ fun _ _ => trivial
  · exact hend _ fun _ _ => trivial
  · exact hend _ fun _ _ => trivial

/-- **Every request keeps to what it has been told.** -/
theorem wp_told (r : Request) :
    (tenantLogic d.platform G).wp p r (Request.code d r) (fun _ _ => True) s := by
  by_cases haccounts : r.onAccounts
  · exact wp_of_tenantFree
      ((Request.issues_onAccounts haccounts).mono fun _ => TenantFree.of_onAccounts)
  have hfree : ∀ {q : Stmt}, (∀ p s, TenantPre p s q) → TenantFree q := id
  cases r with
  | create_organization name actor_id =>
    refine wp_of_tenantFree (OrganizationService.create_issues name actor_id
      (hfree fun _ _ => trivial) (fun _ => hfree fun _ _ => trivial)
      (fun _ _ => hfree fun _ _ => trivial) (fun row owner p s w hw => ?_)
      (hfree fun _ _ => trivial))
    simp only [List.mem_cons, List.not_mem_nil, or_false] at hw
    rcases hw with rfl | rfl <;> trivial
  | rename_organization _ _ _ =>
    exact wp_of_tenantFree (OrganizationService.rename_issues (hfree fun _ _ => trivial)
      (hfree fun _ _ => trivial))
  | delete_organization _ _ =>
    exact wp_of_tenantFree (OrganizationService.delete_issues (hfree fun _ _ => trivial)
      (hfree fun _ _ => trivial))
  | add_member _ _ _ _ => exact wp_membership_told (OrganizationService.add_member_does _ _ _)
  | set_member_role _ _ _ _ =>
    exact wp_membership_told (OrganizationService.set_member_role_does _ _ _)
  | remove_member _ _ _ => exact wp_membership_told (OrganizationService.remove_member_does _ _)
  | create_form _ _ _ => exact wp_create_form_told _ _ _
  | update_form _ _ _ _ =>
    exact wp_of_tenantFree (FormService.update_issues (hfree fun _ _ => trivial)
      (hfree fun _ _ => trivial) fun _ _ _ _ _ _ _ => hfree fun _ _ => trivial)
  | publish_form _ _ _ =>
    exact wp_of_tenantFree (FormService.publish_issues (hfree fun _ _ => trivial)
      (hfree fun _ _ => trivial) (hfree fun _ _ => trivial))
  | close_form _ _ _ =>
    exact wp_of_tenantFree (FormService.close_issues (hfree fun _ _ => trivial)
      (hfree fun _ _ => trivial) (hfree fun _ _ => trivial))
  | rotate_public_id _ _ _ => exact wp_rotate_public_id_told _ _ _
  | delete_form _ _ _ =>
    exact wp_of_tenantFree (FormService.delete_issues (hfree fun _ _ => trivial)
      (hfree fun _ _ => trivial) (hfree fun _ _ => trivial))
  | submit _ _ _ _ => exact wp_submit_told _ _ _ _
  | set_submission_status _ _ _ _ =>
    exact wp_of_tenantFree (FormService.set_submission_status_issues (hfree fun _ _ => trivial)
      (hfree fun _ _ => trivial) (hfree fun _ _ => trivial))
  | delete_submission _ _ _ =>
    exact wp_of_tenantFree (FormService.delete_submission_issues (hfree fun _ _ => trivial)
      (hfree fun _ _ => trivial))
  | export_submissions _ _ _ _ _ =>
    exact wp_of_tenantFree (FormService.export_submissions_issues (hfree fun _ _ => trivial)
      (hfree fun _ _ => trivial) (hfree fun _ _ => trivial) fun _ => hfree fun _ _ => trivial)
  | upload _ _ _ _ _ => exact wp_upload_told _ _ _ _ _
  | reap_abandoned_uploads =>
    exact wp_of_tenantFree (FormService.reap_abandoned_uploads_issues (hfree fun _ _ => trivial)
      (fun _ _ => hfree fun _ _ => trivial) (fun _ => hfree fun _ _ => trivial)
      fun _ => hfree fun _ _ => trivial)
  | create_endpoint _ _ _ => exact wp_create_endpoint_told _ _ _
  | update_endpoint _ _ _ _ => exact wp_update_endpoint_told _ _ _ _
  | delete_endpoint _ _ _ =>
    exact wp_of_tenantFree (WebhookService.delete_issues (hfree fun _ _ => trivial)
      (hfree fun _ _ => trivial))
  | rotate_secret _ _ _ =>
    exact wp_of_tenantFree (WebhookService.rotate_secret_issues (hfree fun _ _ => trivial)
      (hfree fun _ _ => trivial) (hfree fun _ _ => trivial) fun _ => hfree fun _ _ => trivial)
  | redeliver _ _ _ =>
    exact wp_of_tenantFree (WebhookService.redeliver_issues (hfree fun _ _ => trivial)
      (hfree fun _ _ => trivial) (hfree fun _ _ => trivial))
  | deliver_webhooks => exact wp_of_tenantFree deliver_webhooks_tenantFree
  | dispatch_outbox => exact wp_dispatch_outbox_told
  | _ => exact absurd trivial haccounts

end Scripts

end SubmitSnap
