import SubmitSnap.Form.SchemaVersion
import SubmitSnap.Interleave.Alone

/-!
# Definitions: what is checked, and when it is written

Managers create, edit, publish and close forms, each in a request that loads the row, checks it and
writes it in a later statement. An edit checks the definition it is about to write against the
status it has loaded, a publication checks the definition it has loaded, and neither write looks at
the other's column again. So on an instance without storage a publication and an edit that overlap
can publish a form that asks for a file, which each of them refuses to do alone.

A second gap is in `create`, which counts the addresses to notify but does not look at them, while
every edit does: a form that was created with a bad address refuses every edit.

## The argument

What a request checks is a row it has loaded, and what it writes is decided by it: `DefinitionPre`
says for each write which check of which loaded row came before it. The log remembers what was
loaded (`lastFound`), so nobody else can disturb that. But the database may have moved on since,
and then the check was about a row that is not there any more.

Two requests have to meet for it to matter, a publication and an edit, each of which relies on a
column that the other writes. `overtaken` is this situation, at the moment of the write; without
it, the invariant is preserved by a look at the two writes.

## Main definitions

* `lastFound` — the row a request has loaded.
* `overtaken` — a write relies on a column that has changed since it was loaded.
* `FormFits` — what an edit demands of a form.

## Main results

* `noFilesPublished_of_reaches` — without storage, no published form asks for a file.
* `formsFit_of_reaches` — every form can be edited, and an edit that changes nothing succeeds.
-/

namespace SubmitSnap

open Interleave
open Interleave.Script (ret when mapError result forEach)

/-! ### Definitions that fit

`FormFits` is what an edit demands, without the status; whether the form may have a file field
depends on the status and on the configuration, and is a property of its own. -/

/-- What `update` demands of a form, whatever its status. -/
structure FormFits (P : Platform) (f : FormRecord) : Prop where
  name : 1 ≤ f.name.length ∧ f.name.length ≤ 120
  schema : validate_schema P f.schema = .ok ()
  redirect_url : ∀ url ∈ f.redirect_url,
    starts_with url "https://" = true ∨ starts_with url "http://" = true
  notify_emails : f.notify_emails.length ≤ 20 ∧
    ∀ email ∈ f.notify_emails, P.validate_email email = true

/-- Where files cannot be uploaded, no published form asks for one. -/
def NoFilesPublished (db : Database) : Prop :=
  ∀ f ∈ db.forms.rows, f.status = .published → f.schema.has_file_field = false

/-- A request to update a form in which every field is absent. -/
def UpdateFormRequest.absent : UpdateFormRequest where
  name := none
  schema := none
  notify_emails := none
  success_message := none
  redirect_url := none
  honeypot_enabled := none

section Checks

variable {d : Deployment} {f : FormRecord} {name : String} {schema : FormSchema} {b : Bool}
  {url : Option String} {emails : List String}

theorem check_name_iff : check_name name = .ok () ↔ 1 ≤ name.length ∧ name.length ≤ 120 := by
  have hempty : name.isEmpty = true ↔ name.length = 0 := by simp
  unfold check_name
  split
  · next h =>
    rw [Bool.or_eq_true, hempty, decide_eq_true_iff] at h
    simp only [reduceCtorEq, false_iff]
    omega
  · next h =>
    rw [Bool.or_eq_true, hempty, decide_eq_true_iff] at h
    simp only [true_iff]
    omega

theorem check_schema_iff : check_schema d schema b = .ok () ↔
    validate_schema d.platform schema = .ok () ∧
      (b = true → schema.has_file_field = true → d.config.storage_enabled = true) := by
  unfold check_schema
  cases validate_schema d.platform schema with
  | error problems => simp
  | ok _ =>
    cases b <;> cases schema.has_file_field <;> cases d.config.storage_enabled <;> simp

theorem check_redirect_url_iff : check_redirect_url url = .ok () ↔ ∀ u ∈ url,
    starts_with u "https://" = true ∨ starts_with u "http://" = true := by
  unfold check_redirect_url
  cases url with
  | none => simp
  | some u => simp [or_iff_not_imp_left]

theorem check_notify_emails_iff {P : Platform} : check_notify_emails P emails = .ok () ↔
    emails.length ≤ 20 ∧ ∀ email ∈ emails, P.validate_email email = true := by
  unfold check_notify_emails
  split
  · next h =>
    simp only [reduceCtorEq, false_iff, not_and]
    omega
  · next h =>
    cases hfind : emails.find? fun email => !P.validate_email email with
    | none =>
      have hall : ∀ email ∈ emails, P.validate_email email = true := by
        simpa using List.find?_eq_none.mp hfind
      simpa using ⟨by omega, hall⟩
    | some bad =>
      have hbad : P.validate_email bad = false := by simpa using List.find?_some hfind
      simp only [reduceCtorEq, false_iff, not_and]
      intro _ hall
      rw [hall bad (List.mem_of_find?_eq_some hfind)] at hbad
      cases hbad

/-- An update accepts exactly the definitions that fit, for the status the form has. -/
theorem check_update_iff {current wanted : FormRecord} : check_update d current wanted = .ok () ↔
    FormFits d.platform wanted ∧ (current.status.accepts_submissions = true →
      wanted.schema.has_file_field = true → d.config.storage_enabled = true) := by
  unfold check_update
  constructor
  · intro h
    cases hname : check_name wanted.name with
    | error e => simp [hname, bind, Except.bind] at h
    | ok _ =>
      cases hschema : check_schema d wanted.schema current.status.accepts_submissions with
      | error e => simp [hname, hschema, bind, Except.bind] at h
      | ok _ =>
        cases hurl : check_redirect_url wanted.redirect_url with
        | error e => simp [hname, hschema, hurl, bind, Except.bind] at h
        | ok _ =>
          have hemails : check_notify_emails d.platform wanted.notify_emails = .ok () := by
            simpa [hname, hschema, hurl, bind, Except.bind] using h
          rw [check_schema_iff] at hschema
          exact ⟨⟨check_name_iff.mp hname, hschema.1, check_redirect_url_iff.mp hurl,
            check_notify_emails_iff.mp hemails⟩, hschema.2⟩
  · rintro ⟨hfits, hstorage⟩
    rw [check_name_iff.mpr hfits.name, check_schema_iff.mpr ⟨hfits.schema, hstorage⟩,
      check_redirect_url_iff.mpr hfits.redirect_url,
      check_notify_emails_iff.mpr hfits.notify_emails]
    rfl

theorem over_absent : UpdateFormRequest.absent.over f = f := rfl

end Checks

/-! ### What a statement makes of the forms

Every row of `forms` after a statement is in one of a few relations to a row before it, or has
just been created. The cases carry exactly the columns that the two properties look at. -/

/-- Where a form comes from, statement by statement. -/
inductive FormMade (db : Database) : Stmt → FormRecord → Prop where
  | kept {q : Stmt} {f : FormRecord} (hf : f ∈ db.forms.rows) : FormMade db q f
  | created {organization_id : Uuid} {name public_id : String} {schema : FormSchema}
      {notify_emails : List String} {f : FormRecord}
      (hchecks : formChecks name notify_emails = none)
      (hname : f.name = name) (hschema : f.schema = schema)
      (hemails : f.notify_emails = notify_emails)
      (hstatus : f.status = .draft) (hurl : f.redirect_url = none) :
      FormMade db (.forms (.create organization_id name public_id schema notify_emails)) f
  | replaced {organization_id id : Uuid} {name : String} {schema : FormSchema}
      {schema_changed : Bool} {notify_emails : List String}
      {success_message redirect_url : Option String} {honeypot_enabled : Bool}
      {f f' : FormRecord} (hf : f ∈ db.forms.rows)
      (horganization : f.organization_id = organization_id)
      (hid : f.id = id) (hname : f'.name = name) (hschema : f'.schema = schema)
      (hemails : f'.notify_emails = notify_emails) (hstatus : f'.status = f.status)
      (hurl : f'.redirect_url = redirect_url) :
      FormMade db (.forms (.replace_definition organization_id id name schema schema_changed
        notify_emails success_message redirect_url honeypot_enabled)) f'
  | moved {organization_id id : Uuid} {status : FormStatus} {f f' : FormRecord}
      (hf : f ∈ db.forms.rows) (horganization : f.organization_id = organization_id)
      (hid : f.id = id) (hname : f'.name = f.name) (hschema : f'.schema = f.schema)
      (hemails : f'.notify_emails = f.notify_emails) (hstatus : f'.status = status)
      (hurl : f'.redirect_url = f.redirect_url) :
      FormMade db (.forms (.set_status organization_id id status)) f'
  | handled {organization_id id : Uuid} {public_id : String} {f : FormRecord}
      (hf : f ∈ db.forms.rows) :
      FormMade db (.forms (.set_public_id organization_id id public_id))
        { f with public_id := public_id }

section Made

variable {P : Platform} {p : ℕ} {c : Choice} {db db' : Database}

/-- **Where a form comes from.** -/
theorem Stmt.form_made {q : Stmt} {x : Except Failure q.Reply}
    (h : q.run P p c db = some (db', x)) {f' : FormRecord} (hf' : f' ∈ db'.forms.rows) :
    FormMade db q f' := by
  by_cases hforms : ∃ q', q = .forms q'
  · obtain ⟨q', rfl⟩ := hforms
    cases q' with
    | create organization_id name public_id schema notify_emails =>
      simp only [Stmt.run, FormStmt.run] at h
      split at h
      · split at h
        · cases h
          exact .kept hf'
        · next hchecks =>
          (repeat' split at h) <;> cases h
          · exact .kept hf'
          · exact .kept hf'
          · rcases Table.mem_insertNew.mp hf' with hf' | ⟨rfl, -⟩
            · exact .kept hf'
            · exact .created hchecks rfl rfl rfl rfl rfl
      · cases h
    | replace_definition organization_id id name schema schema_changed notify_emails
        success_message redirect_url honeypot_enabled =>
      simp only [Stmt.run, FormStmt.run] at h
      split at h
      · split at h
        · cases h
          exact .kept hf'
        · cases h
          exact .kept hf'
        · cases h
          obtain ⟨f, hf, ⟨hsel, rfl⟩ | ⟨-, rfl⟩⟩ := Table.of_mem_updateWhere hf'
          · simp only [Bool.and_eq_true, beq_iff_eq] at hsel
            exact .replaced hf hsel.1 hsel.2 rfl rfl rfl rfl rfl
          · exact .kept hf
      · cases h
    | set_status organization_id id status =>
      simp only [Stmt.run, FormStmt.run] at h
      split at h <;> cases h
      obtain ⟨f, hf, ⟨hsel, rfl⟩ | ⟨-, rfl⟩⟩ := Table.of_mem_updateWhere hf'
      · simp only [Bool.and_eq_true, beq_iff_eq] at hsel
        exact .moved hf hsel.1 hsel.2 rfl rfl rfl rfl rfl
      · exact .kept hf
    | set_public_id organization_id id public_id =>
      simp only [Stmt.run, FormStmt.run] at h
      (repeat' split at h) <;> cases h
      · exact .kept hf'
      · obtain ⟨f, hf, ⟨-, rfl⟩ | ⟨-, rfl⟩⟩ := Table.of_mem_updateWhere hf'
        · exact .handled hf
        · exact .kept hf
    | delete organization_id id =>
      simp only [Stmt.run, FormStmt.run] at h
      (repeat' split at h) <;> cases h
      · exact .kept hf'
      · exact .kept (Database.cascadeForm_forms _ hf')
    | find _ _ | find_by_public_id _ =>
      cases h
      exact .kept hf'
  · exact .kept (Stmt.forms_subset (fun q' hq' => hforms ⟨q', hq'⟩) h hf')

end Made

/-! ### What is known when a definition is written -/

/-- What `p` found when it last looked a form up. -/
def lastFound (p : ℕ) : List Event → Option FormRecord
  | [] => none
  | ⟨p', _, _, .forms (.find _ _), .ok found⟩ :: log => if p' = p then found else lastFound p log
  | _ :: log => lastFound p log

/-- The checks that come before each write, over the row that was loaded. -/
def DefinitionPre (d : Deployment) (p : ℕ) (s : State) : Stmt → Prop
  | .forms (.create _ _ _ schema _) => validate_schema d.platform schema = .ok ()
  | .forms (.replace_definition _ _ name schema _ notify_emails _ redirect_url _) =>
    ∃ loaded wanted, lastFound p s.log = some loaded ∧ check_update d loaded wanted = .ok () ∧
      wanted.name = name ∧ wanted.schema = schema ∧ wanted.notify_emails = notify_emails ∧
      wanted.redirect_url = redirect_url
  | .forms (.set_status _ _ .published) =>
    ∃ loaded, lastFound p s.log = some loaded ∧ check_schema d loaded.schema true = .ok ()
  | _ => True

/-- A publication or an edit is about to publish a file field, which its own check refuses: the
form has a file field by now that the publication has not seen, or it is published by now and was
not when the edit loaded it. Both compare what was loaded with the row as it is, which only
somebody who sees the whole run can do; the code does not. -/
def overtaken (d : Deployment) (p : ℕ) (s : State) : Stmt → Prop
  | .forms (.set_status organization_id id .published) =>
    d.config.storage_enabled = false ∧ ∃ loaded ∈ lastFound p s.log,
      loaded.schema.has_file_field = false ∧ ∃ f ∈ s.db.forms.rows,
        f.organization_id = organization_id ∧ f.id = id ∧ f.schema.has_file_field = true
  | .forms (.replace_definition organization_id id _ schema _ _ _ _ _) =>
    d.config.storage_enabled = false ∧ schema.has_file_field = true ∧
      ∃ loaded ∈ lastFound p s.log, loaded.status ≠ .published ∧ ∃ f ∈ s.db.forms.rows,
        f.organization_id = organization_id ∧ f.id = id ∧ f.status = .published
  | _ => False

/-- A form is about to be created with an address that is none. -/
def createsUnchecked (P : Platform) : Stmt → Prop
  | .forms (.create _ _ _ _ notify_emails) =>
    ∃ email ∈ notify_emails, P.validate_email email = false
  | _ => False

section Found

variable {d : Deployment} {p p' : ℕ} {r : Request} {q : Stmt} {x : Except Failure q.Reply}
  {s s' : State} {db : Database} {log : List Event}

theorem lastFound_cons (h : p' ≠ p) :
    lastFound p (⟨p', r, db, q, x⟩ :: log) = lastFound p log := by
  conv_lhs => unfold lastFound
  split
  · next heq => cases heq
  · next heq =>
    cases heq
    exact if_neg h
  · next heq =>
    cases heq
    rfl

/-- What `p` has found does not depend on what the others do. -/
theorem lastFound_of_others (h : Others p s s') : lastFound p s'.log = lastFound p s.log := by
  obtain ⟨new, hnew, hne⟩ := h
  rw [hnew]
  clear hnew
  induction new with
  | nil => rfl
  | cons e new ih =>
    rw [List.cons_append, lastFound_cons (hne e List.mem_cons_self)]
    exact ih fun e' he' => hne e' (List.mem_cons_of_mem _ he')

/-- The logic of definitions, in any regime: what a request has found is its own business. -/
def definitionLogic (d : Deployment) (G : Regime) : Logic G (store d.platform) :=
  .ofPre fun p _ q s => DefinitionPre d p s q

end Found

/-! ### The scripts

Creating, editing and publishing are the three that write a definition or make one public. Each
loads the row, checks, and writes; the postcondition of loading is that the log remembers the row,
and from there on the checks are pure. -/

/-- The requests that manage forms. -/
def Request.managesForms : Request → Prop
  | create_form _ _ _ | update_form _ _ _ _ | publish_form _ _ _ | close_form _ _ _
  | rotate_public_id _ _ _ => True
  | _ => False

section Scripts

variable {d : Deployment} {G : Regime} {p : ℕ} {r : Request} {s s' : State} {ε α : Type}

/-- Code that may run at any time. -/
theorem wp_of_definitionPre {x : Code ε α} (hx : x.Issues fun q => ∀ p s, DefinitionPre d p s q) :
    (definitionLogic d G).wp p r x (fun _ _ => True) s :=
  Logic.wp_of_does (fun q => ∀ p s, DefinitionPre d p s q) (fun _ _ => True) (fun _ => True)
    (fun _ => True) (fun _ _ => trivial) (fun hq _ _ => hq _ _)
    (fun _ _ _ _ _ => ⟨trivial, trivial⟩) (fun _ _ => trivial) hx.does trivial

theorem manager_access_definitionPre (organization_id actor_id : Uuid) :
    (FormService.manager_access organization_id actor_id).Issues
      fun q => ∀ p s, DefinitionPre d p s q :=
  FormService.manager_access_issues fun _ _ => trivial

theorem load_definitionPre (organization_id form_id : Uuid) :
    (FormService.load organization_id form_id).Issues fun q => ∀ p s, DefinitionPre d p s q :=
  FormService.load_issues fun _ _ => trivial

theorem get_definitionPre (organization_id form_id actor_id : Uuid) :
    (FormService.get organization_id form_id actor_id).Issues
      fun q => ∀ p s, DefinitionPre d p s q :=
  (OrganizationService.access_issues fun _ _ => trivial).mapError.bind fun _ =>
    load_definitionPre _ _

/-- What a request has loaded is what it last found. -/
theorem wp_load {L : Logic G (store d.platform)} {organization_id form_id : Uuid}
    (hpre : ∀ s, L.pre p r (.forms (.find organization_id form_id)) s) :
    L.wp p r (FormService.load organization_id form_id)
      (fun y s' => ∀ form, y = .ok form → lastFound p s'.log = some form) s := by
  refine Logic.wp_query_bind fun s₁ _ =>
    ⟨hpre s₁, fun found s₂ hx₂ _ => ?_, fun _ _ _ _ _ _ => nofun⟩
  cases found with
  | none => exact fun _ _ => nofun
  | some form =>
    intro s₃ he₃ form' heq
    cases heq
    rw [lastFound_of_others he₃.others, hx₂.log_eq]
    simp [lastFound]

theorem wp_create (organization_id : Uuid) (request : CreateFormRequest) (actor_id : Uuid) :
    (definitionLogic d G).wp p r (FormService.create d organization_id request actor_id)
      (fun _ _ => True) s := by
  refine wp_of_definitionPre
    ((manager_access_definitionPre organization_id actor_id).bind fun _ => ?_)
  cases hcheck : check_schema d request.schema false with
  | error e => trivial
  | ok _ =>
    refine (Script.issues_query fun _ _ => trivial).bind fun public_id => ?_
    exact Script.issues_query fun _ _ => (check_schema_iff.mp hcheck).1

theorem wp_update (organization_id form_id : Uuid) (request : UpdateFormRequest) (actor_id : Uuid) :
    (definitionLogic d G).wp p r (FormService.update d organization_id form_id request actor_id)
      (fun _ _ => True) s := by
  refine Logic.wp_bind trivial (wp_of_definitionPre (manager_access_definitionPre _ _))
    (fun _ s₁ _ _ => ?_) fun _ _ _ _ => trivial
  refine Logic.wp_bind trivial (wp_load fun _ => trivial) (fun loaded s₂ _ hfound => ?_)
    fun _ _ _ _ => trivial
  cases hcheck : check_update d loaded (request.over loaded) with
  | error e => exact fun _ _ => trivial
  | ok _ =>
    refine Logic.wp_query_bind fun s₃ he₃ =>
      ⟨?_, fun updated s₄ _ _ => ?_, fun _ _ _ _ _ _ => trivial⟩
    · refine ⟨loaded, request.over loaded, ?_, hcheck, rfl, rfl, rfl, rfl⟩
      rw [lastFound_of_others he₃.others]
      exact hfound loaded rfl
    · split
      · exact fun _ _ => trivial
      · exact wp_of_definitionPre (get_definitionPre organization_id form_id actor_id)

theorem wp_publish (organization_id form_id actor_id : Uuid) :
    (definitionLogic d G).wp p r (FormService.publish d organization_id form_id actor_id)
      (fun _ _ => True) s := by
  refine Logic.wp_bind trivial (wp_of_definitionPre (manager_access_definitionPre _ _))
    (fun _ s₁ _ _ => ?_) fun _ _ _ _ => trivial
  refine Logic.wp_bind trivial (wp_load fun _ => trivial) (fun loaded s₂ _ hfound => ?_)
    fun _ _ _ _ => trivial
  cases hcheck : check_schema d loaded.schema true with
  | error e => exact fun _ _ => trivial
  | ok _ =>
    refine Logic.wp_query_bind fun s₃ he₃ => ⟨?_, fun _ s₄ _ _ => ?_, fun _ _ _ _ _ _ => trivial⟩
    · refine ⟨loaded, ?_, hcheck⟩
      rw [lastFound_of_others he₃.others]
      exact hfound loaded rfl
    · exact wp_of_definitionPre (get_definitionPre organization_id form_id actor_id)

theorem close_definitionPre (organization_id form_id actor_id : Uuid) :
    (FormService.close organization_id form_id actor_id).Issues
      fun q => ∀ p s, DefinitionPre d p s q := by
  refine (manager_access_definitionPre organization_id actor_id).bind fun _ =>
    (load_definitionPre organization_id form_id).bind fun form => ?_
  split
  · trivial
  · exact (Script.issues_query fun _ _ => trivial).bind fun _ => get_definitionPre _ _ _

theorem rotate_public_id_definitionPre (organization_id form_id actor_id : Uuid) :
    (FormService.rotate_public_id organization_id form_id actor_id).Issues
      fun q => ∀ p s, DefinitionPre d p s q :=
  (manager_access_definitionPre organization_id actor_id).bind fun _ =>
    (load_definitionPre organization_id form_id).bind fun _ =>
      (Script.issues_query fun _ _ => trivial).bind fun _ =>
        (Script.issues_query fun _ _ => trivial).bind fun _ => get_definitionPre _ _ _

/-- **A definition is checked before it is written**, over the row that was loaded. -/
theorem wp_managesForms (hr : r.managesForms) :
    (definitionLogic d G).wp p r (Request.code d r) (fun _ _ => True) s := by
  cases r with
  | create_form organization_id request actor_id => exact wp_create organization_id request actor_id
  | update_form organization_id form_id request actor_id =>
    exact wp_update organization_id form_id request actor_id
  | publish_form organization_id form_id actor_id =>
    exact wp_publish organization_id form_id actor_id
  | close_form organization_id form_id actor_id =>
    exact wp_of_definitionPre (close_definitionPre organization_id form_id actor_id)
  | rotate_public_id organization_id form_id actor_id =>
    exact wp_of_definitionPre (rotate_public_id_definitionPre organization_id form_id actor_id)
  | _ => exact hr.elim

end Scripts

/-! ### Runs -/

/-- The runs in which no publication and no edit is overtaken by the other. -/
abbrev apart (d : Deployment) : Regime :=
  (Regime.free Request.managesForms).avoiding fun p _ q s => overtaken d p s q

/-- Those of them in which every form is created with addresses that are some. -/
abbrev checkedApart (d : Deployment) : Regime :=
  (apart d).avoiding fun _ _ q _ => createsUnchecked d.platform q

section Runs

variable {d : Deployment} {p : ℕ} {r : Request} {q : Stmt} {x : Except Failure q.Reply} {c : Choice}
  {s s' : State} {db db' : Database} {w : World} {f : FormRecord} {G : Regime}

/-- Without storage, a statement that is not overtaken publishes no file field. -/
theorem NoFilesPublished.run (hs : NoFilesPublished s.db)
    (hstorage : d.config.storage_enabled = false)
    (hpre : DefinitionPre d p s q) (hnot : ¬ overtaken d p s q)
    (h : q.run d.platform p c s.db = some (db', x)) : NoFilesPublished db' := by
  intro f' hf' hpublished
  rw [← Bool.not_eq_true]
  intro hfile
  cases Stmt.form_made h hf' with
  | kept hf =>
    rw [hs f' hf hpublished] at hfile
    cases hfile
  | created _ _ _ _ hstatus _ =>
    rw [hstatus] at hpublished
    cases hpublished
  | replaced hf horganization hid _ hschema _ hstatus _ =>
    obtain ⟨loaded, wanted, hfound, hcheck, -, hwanted, -, -⟩ := hpre
    rw [hschema] at hfile
    by_cases hloaded : loaded.status = .published
    · have haccepts : loaded.status.accepts_submissions = true := by rw [hloaded]; rfl
      have hdemands := (check_update_iff.mp hcheck).2 haccepts (by rw [hwanted]; exact hfile)
      rw [hstorage] at hdemands
      cases hdemands
    · exact hnot ⟨hstorage, hfile, loaded, hfound, hloaded, _, hf, horganization, hid,
        hstatus.symm.trans hpublished⟩
  | @moved _ _ status f _ hf horganization hid _ hschema _ hstatus _ =>
    obtain rfl : status = .published := hstatus.symm.trans hpublished
    obtain ⟨loaded, hfound, hcheck⟩ := hpre
    have hnone : loaded.schema.has_file_field = false := by
      rw [← Bool.not_eq_true]
      intro hloaded
      have hdemands := (check_schema_iff.mp hcheck).2 rfl hloaded
      rw [hstorage] at hdemands
      cases hdemands
    rw [hschema] at hfile
    exact hnot ⟨hstorage, loaded, hfound, hnone, f, hf, horganization, hid, hfile⟩
  | @handled _ _ _ f hf =>
    have hnone := hs f hf hpublished
    rw [show f.schema.has_file_field = true from hfile] at hnone
    cases hnone

/-- A statement that has been checked makes forms that fit. -/
theorem formFits_of_run (hs : ∀ f ∈ s.db.forms.rows, FormFits d.platform f)
    (hpre : DefinitionPre d p s q) (hnot : ¬ createsUnchecked d.platform q)
    (h : q.run d.platform p c s.db = some (db', x)) {f' : FormRecord} (hf' : f' ∈ db'.forms.rows) :
    FormFits d.platform f' := by
  cases Stmt.form_made h hf' with
  | kept hf => exact hs f' hf
  | created hchecks hname hschema hemails hstatus hurl =>
    unfold formChecks at hchecks
    split at hchecks
    · cases hchecks
    · next hlength =>
      split at hchecks
      · cases hchecks
      · next hcount =>
        refine ⟨?_, ?_, ?_, ?_, fun email hemail => ?_⟩
        · rw [hname]
          omega
        · rw [hschema]
          exact hpre
        · rw [hurl]
          exact nofun
        · rw [hemails]
          omega
        · rw [hemails] at hemail
          rw [← Bool.not_eq_false]
          exact fun hbad => hnot ⟨email, hemail, hbad⟩
  | replaced hf _ _ hname hschema hemails _ hurl =>
    obtain ⟨loaded, wanted, -, hcheck, rfl, rfl, rfl, rfl⟩ := hpre
    have hfits := (check_update_iff.mp hcheck).1
    refine ⟨?_, ?_, ?_, ?_⟩
    · rw [hname]
      exact hfits.name
    · rw [hschema]
      exact hfits.schema
    · rw [hurl]
      exact hfits.redirect_url
    · rw [hemails]
      exact hfits.notify_emails
  | @moved _ _ _ f _ hf _ _ hname hschema hemails _ hurl =>
    refine ⟨?_, ?_, ?_, ?_⟩
    · rw [hname]
      exact (hs f hf).name
    · rw [hschema]
      exact (hs f hf).schema
    · rw [hurl]
      exact (hs f hf).redirect_url
    · rw [hemails]
      exact (hs f hf).notify_emails
  | @handled _ _ _ f hf => exact ⟨(hs f hf).name, (hs f hf).schema, (hs f hf).redirect_url,
      (hs f hf).notify_emails⟩

/-- **Without storage, no published form asks for a file**, in every run in which no publication and
no edit of a form overtake each other. -/
theorem noFilesPublished_of_reaches (hstorage : d.config.storage_enabled = false)
    (hdb : NoFilesPublished db) (h : Reaches d (apart d) (World.start db) w) :
    NoFilesPublished w.shared.db := by
  have hspec : ∀ p r s, (apart d).spawns r → (definitionLogic d (apart d)).inv s →
      (∀ e ∈ s.log, e.pid ≠ p) →
      (definitionLogic d (apart d)).wp p r (Request.code d r) (fun _ _ => True) s :=
    fun p r s hr _ _ => wp_managesForms hr
  have hstart : (definitionLogic d (apart d)).Safe (fun _ _ _ _ => True) (World.start db) :=
    .start trivial
  refine Logic.inv_of_reaches (I := fun s => NoFilesPublished s.db) hspec hstart hdb ?_
    (fun _ hI => hI) (fun hI => hI) h
  intro p r q s x s' _ hpre hI he
  cases he with
  | fail _ => exact hI
  | run hadmits hrun => exact hI.run hstorage hpre hadmits.2 hrun

/-! ### An edit that changes nothing

That a form fits is no use if an edit could still be refused for another reason. So the edit in
which every field is absent is executed, for a manager and with nobody holding the row: it comes
to an end, answers the form, and leaves the database as it was. -/

/-- The account manages the organization. -/
def Manages (db : Database) (organization_id user_id : Uuid) : Prop :=
  ∃ o m, db.organizations.find? organization_id = some o ∧
    db.organization_members.find? (organization_id, user_id) = some m ∧ m.role.is_manager = true

/-- An update request in which every field is absent, made by a manager while nobody holds the row,
succeeds, answers the form as it is, and changes nothing. -/
def EditsNothing (d : Deployment) (db : Database) (f : FormRecord) : Prop :=
  ∀ p actor_id cs, Manages db f.organization_id actor_id →
    db.free p (.form f.id) .noKeyUpdate = true →
    ∃ cs', (store d.platform).alone p (FormService.update d f.organization_id f.id .absent actor_id)
      cs db = some (.ok f, db, cs')

variable {organization_id form_id actor_id : Uuid} {cs : ℕ → Choice} {P : Platform}

theorem alone_access (h : Manages db organization_id actor_id) :
    ∃ a, (store P).alone p (FormService.access organization_id actor_id) cs db =
      some (.ok a, db, fun n => cs (n + 1)) ∧ a.role.is_manager = true := by
  obtain ⟨o, m, ho, hm, hmanager⟩ := h
  refine ⟨⟨⟨o.id, o.name, o.created_at⟩,
    db.organization_members.rows.countP fun m => m.organization_id == o.id, m.role⟩, ?_, hmanager⟩
  have hrun : (store P).run p (.organizations (.access organization_id actor_id)) (cs 0) db =
      some (db, .ok (some ⟨o.id, o.name, o.created_at,
        db.organization_members.rows.countP fun m => m.organization_id == o.id, some m.role⟩)) := by
    simp only [store, Stmt.run, OrganizationStmt.run, ho, hm, Option.map_some]
  unfold FormService.access OrganizationService.access
  rw [Store.alone_mapError, Store.alone_query_bind hrun]
  rfl

theorem alone_manager_access (h : Manages db organization_id actor_id) :
    (store P).alone p (FormService.manager_access organization_id actor_id) cs db =
      some (.ok (), db, fun n => cs (n + 1)) := by
  obtain ⟨a, ha, hmanager⟩ : ∃ a, (store P).alone p (FormService.access organization_id actor_id)
      cs db = some (.ok a, db, fun n => cs (n + 1)) ∧ a.role.is_manager = true := alone_access h
  unfold FormService.manager_access OrganizationService.require_manager
  rw [Store.alone_bind, ha, Option.bind_some]
  dsimp only
  rw [hmanager, if_pos rfl]
  rfl

theorem alone_load (hf : db.formOf organization_id form_id = some f) :
    (store P).alone p (FormService.load organization_id form_id) cs db =
      some (.ok f, db, fun n => cs (n + 1)) := by
  have hrun : (store P).run p (.forms (.find organization_id form_id)) (cs 0) db =
      some (db, .ok (some f)) := by
    simp only [store, Stmt.run, FormStmt.run, hf]
  unfold FormService.load
  rw [Store.alone_query_bind hrun]
  rfl

theorem formOf_self (hf : f ∈ db.forms.rows) : db.formOf f.organization_id f.id = some f := by
  unfold Database.formOf
  cases hfind : db.forms.rows.find? fun g =>
      g.organization_id == f.organization_id && g.id == f.id with
  | none =>
    have hnone := List.find?_eq_none.mp hfind f hf
    simp at hnone
  | some g =>
    have hid : g.organization_id = f.organization_id ∧ g.id = f.id := by
      simpa using List.find?_some hfind
    rw [Table.eq_of_key_eq _ (List.mem_of_find?_eq_some hfind) hf hid.2]

/-- Writing a form's own definition back changes nothing. -/
theorem replace_definition_self (hf : f ∈ db.forms.rows) (hfits : FormFits P f)
    (hfree : db.free p (.form f.id) .noKeyUpdate = true) :
    (FormStmt.replace_definition f.organization_id f.id f.name f.schema false f.notify_emails
      f.success_message f.redirect_url f.honeypot_enabled).run p c db = some (db, .ok true) := by
  have hchecks : formChecks f.name f.notify_emails = none := by
    have hname := hfits.name
    have hemails := hfits.notify_emails.1
    unfold formChecks
    rw [if_neg (by omega), if_neg (by omega)]
  simp only [FormStmt.run, formOf_self hf, hchecks, if_pos hfree]
  -- The only row the update selects is the form itself.
  have hself : db.updateForm f.organization_id f.id (fun g =>
      { g with
        name := f.name, schema := f.schema
        schema_version := if false = true then g.schema_version + 1 else g.schema_version
        notify_emails := f.notify_emails, success_message := f.success_message
        redirect_url := f.redirect_url, honeypot_enabled := f.honeypot_enabled }) (fun _ => rfl) =
      db := by
    unfold Database.updateForm
    rw [Table.updateWhere_eq_self]
    intro g hg hsel
    simp only [Bool.and_eq_true, beq_iff_eq] at hsel
    obtain rfl := Table.eq_of_key_eq _ hg hf hsel.2
    rfl
  rw [hself]

/-- A form that fits, and may be published as it is, takes the edit that changes nothing. -/
theorem FormFits.editsNothing (hfits : FormFits d.platform f) (hf : f ∈ db.forms.rows)
    (hstorage : f.status.accepts_submissions = true → f.schema.has_file_field = true →
      d.config.storage_enabled = true) : EditsNothing d db f := by
  intro p actor_id cs hmanages hfree
  have hform := formOf_self hf
  have hrun : (store d.platform).run p (.forms (.replace_definition f.organization_id f.id f.name
      f.schema (f.schema.fields ≠ f.schema.fields) f.notify_emails f.success_message f.redirect_url
      f.honeypot_enabled)) (cs 2) db = some (db, .ok true) := by
    have hsame : decide (f.schema.fields ≠ f.schema.fields) = false := by simp
    rw [hsame]
    exact replace_definition_self (c := cs 2) hf hfits hfree
  obtain ⟨a, ha, -⟩ : ∃ a, (store d.platform).alone p
      (FormService.access f.organization_id actor_id) (fun n => cs (n + 3)) db =
        some (.ok a, db, fun n => cs (n + 4)) ∧ a.role.is_manager = true := alone_access hmanages
  refine ⟨fun n => cs (n + 5), ?_⟩
  unfold FormService.update
  rw [Store.alone_bind, alone_manager_access hmanages, Option.bind_some]
  dsimp only
  rw [Store.alone_bind, alone_load hform, Option.bind_some]
  dsimp only
  rw [over_absent, check_update_iff.mpr ⟨hfits, hstorage⟩]
  unfold FormService.replace_definition FormService.require
  rw [Script.ret_bind, Store.alone_query_bind hrun]
  rw [if_neg (by decide)]
  unfold FormService.get
  rw [Store.alone_bind, ha, Option.bind_some]
  exact alone_load hform

/-- **Every form can be edited.** In every run in which forms are created with valid addresses, and,
without storage, no publication and no edit overtake each other, every form satisfies what an edit
demands, and an edit that changes nothing is accepted and changes nothing. -/
theorem formsFit_of_reaches (hdb : ∀ f ∈ db.forms.rows, FormFits d.platform f)
    (hfiles : d.config.storage_enabled = false → NoFilesPublished db)
    (h : Reaches d (checkedApart d) (World.start db) w) :
    ∀ f ∈ w.shared.db.forms.rows, FormFits d.platform f ∧ EditsNothing d w.shared.db f := by
  have hspec : ∀ p r s, (checkedApart d).spawns r → (definitionLogic d (checkedApart d)).inv s →
      (∀ e ∈ s.log, e.pid ≠ p) →
      (definitionLogic d (checkedApart d)).wp p r (Request.code d r) (fun _ _ => True) s :=
    fun p r s hr _ _ => wp_managesForms hr
  have hstart : (definitionLogic d (checkedApart d)).Safe (fun _ _ _ _ => True)
      (World.start db) := .start trivial
  have hinv : (∀ f ∈ w.shared.db.forms.rows, FormFits d.platform f) ∧
      (d.config.storage_enabled = false → NoFilesPublished w.shared.db) := by
    refine Logic.inv_of_reaches
      (I := fun s => (∀ f ∈ s.db.forms.rows, FormFits d.platform f) ∧
        (d.config.storage_enabled = false → NoFilesPublished s.db))
      hspec hstart ⟨hdb, hfiles⟩ ?_ (fun _ hI => hI) (fun hI => hI) h
    intro p r q s x s' _ hpre hI he
    cases he with
    | fail _ => exact hI
    | run hadmits hrun =>
      refine ⟨fun f hf => formFits_of_run hI.1 hpre hadmits.2 hrun hf, fun hstorage => ?_⟩
      exact (hI.2 hstorage).run hstorage hpre hadmits.1.2 hrun
  intro f hf
  refine ⟨hinv.1 f hf, (hinv.1 f hf).editsNothing hf fun haccepts hfile => ?_⟩
  have hpublished : f.status = .published := by
    cases hstatus : f.status with
    | published => rfl
    | draft | closed =>
      rw [hstatus] at haccepts
      cases haccepts
  cases hstorage : d.config.storage_enabled with
  | true => rfl
  | false =>
    rw [hinv.2 hstorage f hf hpublished] at hfile
    cases hfile

end Runs

/-! ### A publication and an edit that overlap

The publication has checked a form without a file field, the edit has found a draft. Both are
right about what they have seen. -/

instance : DecidablePred Request.managesForms := fun r => by
  delta Request.managesForms
  split <;> infer_instance

instance (d : Deployment) (p : ℕ) (s : State) : DecidablePred (overtaken d p s) := fun q => by
  delta overtaken
  split <;> infer_instance

instance (P : Platform) : DecidablePred (createsUnchecked P) := fun q => by
  delta createsUnchecked
  split <;> infer_instance

instance (db : Database) : Decidable (NoFilesPublished db) :=
  inferInstanceAs (Decidable (∀ f ∈ db.forms.rows, f.status = .published →
    f.schema.has_file_field = false))

/-- An instance without storage. -/
def Deployment.withoutStorage : Deployment :=
  ⟨{ AppConfig.sample with storage_enabled := false }, .sample⟩

/-- The form of the sample, not yet published. -/
def draftForm : Database :=
  { Database.sample with
    forms := Table.empty.insertNew
      { FormRecord.sample with status := .draft, published_at := none } }

/-- The publication loads the form and checks it. -/
def publishLoads : List Step := [.spawn 0 (.publish_form 1 2 8), .step 0 {}, .step 0 {}]

/-- An edit asks for a file. -/
def editAddsFile : List Step :=
  [.spawn 1 (.update_form 1 2 { UpdateFormRequest.absent with
      schema := some { FormSchema.sample [] with
        fields := [{ FieldDefinition.sample "cv" with field_type := .file }] } } 9),
    .step 1 {}, .step 1 {}, .step 1 {}, .step 1 {}, .step 1 {}]

/-- The publication is written. -/
def publishWrites : List Step := [.step 0 {}]

/-- **A file field is published without storage**: it is written between the publication's check and
its write. -/
theorem not_noFilesPublished : ¬ ∀ w, Reaches .withoutStorage (Regime.free Request.managesForms)
    (World.start draftForm) w → NoFilesPublished w.shared.db := by
  intro hall
  have hnone := hall _ (Deployment.withoutStorage.reaches_play _
    (publishLoads ++ editAddsFile ++ publishWrites) draftForm)
  revert hnone
  decide +kernel

/-- The edit that comes after the publication is refused. -/
theorem noFilesPublished_publishedFirst :
    let w := Deployment.withoutStorage.play (apart .withoutStorage)
      (publishLoads ++ publishWrites ++ [.spawn 1 (.update_form 1 2 { UpdateFormRequest.absent with
        schema := some { FormSchema.sample [] with
          fields := [{ FieldDefinition.sample "cv" with field_type := .file }] } } 9),
        .step 1 {}, .step 1 {}]) draftForm
    (w.shared.db.forms.rows.map (·.status)) = [.published] ∧ NoFilesPublished w.shared.db :=
  ⟨by decide +kernel, noFilesPublished_of_reaches rfl (by decide +kernel)
    (Deployment.withoutStorage.reaches_play (apart .withoutStorage) _ draftForm)⟩

/-! ### A form with a bad address -/

/-- A manager creates a form that notifies `nobody`. -/
def createNotifying (emails : List String) : List Step :=
  [.spawn 0 (.create_form 1 ⟨"Contact", .sample ["name"], emails⟩ 8), .step 0 {},
    .step 0 { text := "handle" }, .step 0 { id := 3 }]

/-- **Creating a form does not look at its addresses.** -/
theorem not_formsFit : ¬ ∀ w, Reaches .sample (Regime.free Request.managesForms)
    (World.start .sample) w → ∀ f ∈ w.shared.db.forms.rows, FormFits .sample f := by
  intro hall
  have hvalid : ∀ f ∈ (Deployment.sample.play (Regime.free Request.managesForms)
      (createNotifying ["nobody"]) .sample).shared.db.forms.rows, ∀ email ∈ f.notify_emails,
        Platform.sample.validate_email email = true := fun f hf =>
    (hall _ (Deployment.sample.reaches_play _ (createNotifying ["nobody"]) .sample)
      f hf).notify_emails.2
  revert hvalid
  decide +kernel

/-- A form that was created with a good address can be edited. -/
theorem formsFit_created :
    let w := Deployment.sample.play (checkedApart .sample) (createNotifying ["ada@example.org"])
      .sample
    (w.shared.db.forms.rows.map (·.notify_emails)) = [[], ["ada@example.org"]] ∧
      ∀ f ∈ w.shared.db.forms.rows, FormFits .sample f ∧ EditsNothing .sample w.shared.db f := by
  refine ⟨by decide +kernel, formsFit_of_reaches ?_
    (fun hstorage => absurd hstorage (by decide))
    (Deployment.sample.reaches_play (checkedApart .sample) _ .sample)⟩
  intro f hf
  obtain rfl : f = .sample := List.mem_singleton.mp hf
  have hcheck : check_update .sample .sample .sample = .ok () := by decide +kernel
  exact (check_update_iff.mp hcheck).1

end SubmitSnap
