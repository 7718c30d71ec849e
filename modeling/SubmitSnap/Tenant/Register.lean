import SubmitSnap.Interleave.Registry
import SubmitSnap.Tenant.Told

/-!
# A thing has one organization, for good

No constraint of the schema says that a submission is of the organization its form is of, or that a
delivery goes to an endpoint of the organization the submission was made to. It holds all the same,
in every state of every run: each thing is entered once, under one organization, and whatever any
row says of it at any later time is what was entered. Nothing is ever moved from one organization to
another, and no id or key comes back under a new owner after its row has been deleted.

## The argument

`own` is a relation on the trace: who entered a thing, or who had it at the start. The invariant
says that it is functional and that the rows agree with it, those of the database and those that
anybody has read. A statement makes rows that place things in organizations; the request has been
told that they belong there (`TenantPre`), so by the invariant they were entered there, and the
rows still agree with the trace. A thing that is entered is new (`entersThing_new`), which is
where ids and keys that are drawn fresh come in. Rows that disappear do no harm: the trace
remembers what they said.

## Main definitions

* `own` — who a thing belongs to, by the trace.
* `TenantInv` — the rows and the trace agree on it.
* `Separated` — the rows of a database do.

## Main results

* `tenantInv_of_reaches` — they always do.
* `one_organization` — two rows of one run that place a thing name the same organization.
-/

namespace SubmitSnap

open Interleave
open Tenanted

/-- Who a thing belongs to, by the trace and by what was there before it began. -/
abbrev own (db₀ : Database) (log : List Event) : Thing → Uuid → Prop :=
  Registered (Places db₀) entersThing log

/-- The name of a thing is not available any more. -/
def NameTaken (db₀ : Database) (s : State) : Thing → Prop
  | .form id | .submission id | .upload id | .endpoint id => id ∈ s.db.issued
  | .object key => keyNames.Used (oldKey db₀) key s.log

/-- Every row of the database, and every row anyone has ever read, says of a thing what was entered
when it was made.

`told` goes beyond the present database because requests go by what they have read some time ago.
`settled` is what all results about tenants rest on: a thing has one owner by the trace, and a
name that has an owner is not available for something else. -/
structure TenantInv (db₀ : Database) (s : State) : Prop where
  keys : KeysFresh db₀ s
  settled : OneOwner (own db₀ s.log) (NameTaken db₀ s)
  placed : ∀ thing o, Places s.db thing o → own db₀ s.log thing o
  told : ∀ thing o, Told thing o s.log → own db₀ s.log thing o

/-- The rows agree on what belongs to whom, and what they place has a name that was issued. -/
structure Separated (db : Database) : Prop where
  agree : ∀ thing o o', Places db thing o → Places db thing o' → o = o'
  named : ∀ thing o, Places db thing o → NameTaken db ⟨db, []⟩ thing

section Steps

variable {P : Platform} {G : Regime} {p p' : ℕ} {r : Request} {q : Stmt} {c : Choice}
  {s s' : State} {db db' db₀ : Database} {x : Except Failure q.Reply} {thing : Thing} {o : Uuid}
  {key : String}

/-! ### What is entered is new

A thing is entered by the statement that makes its row, under an id that the database has just
drawn or a key that nobody has used. -/

theorem not_entersThing_error {e : Failure} : ¬ entersThing thing o ⟨p, r, db, q, .error e⟩ := by
  unfold entersThing
  split
  · next heq => cases heq
  · next heq => cases heq
  · next heq => cases heq
  · next heq => cases heq
  · exact id

theorem UploadStmt.answer_insert {upload : NewFileUpload} {row : FileUploadRecord}
    (h : (UploadStmt.insert upload).run p c db = some (db', .ok row)) :
    row.form_id = upload.form_id ∧ row.organization_id = upload.organization_id := by
  simp only [UploadStmt.run] at h
  (repeat' split at h) <;> cases h
  exact ⟨rfl, rfl⟩

/-- The answers of the statements that make something. -/
theorem FormStmt.answer_create {organization_id : Uuid} {name public_id : String}
    {schema : FormSchema} {emails : List String} {form : FormRecord}
    (h : (FormStmt.create organization_id name public_id schema emails).run p c db =
      some (db', .ok form)) : form.id ∉ db.issued ∧ form.id ∈ db'.issued := by
  simp only [FormStmt.run] at h
  split at h
  · next hfree =>
    have hnew : c.id ∉ db.issued := of_decide_eq_true (Bool.and_eq_true_iff.mp hfree).1
    (repeat' split at h) <;> cases h
    exact ⟨hnew, List.mem_cons_self⟩
  · cases h

theorem WebhookStmt.answer_create {organization_id : Uuid} {form_id : Option Uuid}
    {url secret : String} {description : Option String} {row : WebhookEndpointRecord}
    (h : (WebhookStmt.create_endpoint organization_id form_id url secret description).run p c db =
      some (db', .ok row)) : row.id ∉ db.issued ∧ row.id ∈ db'.issued ∧
        row.organization_id = organization_id ∧ row.form_id = form_id := by
  simp only [WebhookStmt.run] at h
  split at h
  · next hfree =>
    have hnew : c.id ∉ db.issued :=
      of_decide_eq_true (Bool.and_eq_true_iff.mp (Bool.and_eq_true_iff.mp hfree).1).1
    (repeat' split at h) <;> cases h
    exact ⟨hnew, List.mem_cons_self, rfl, rfl⟩
  · cases h

theorem NameTaken.mono (hissued : ∀ n, n ∈ s.db.issued → n ∈ s'.db.issued)
    (hlog : ∀ e ∈ s.log, e ∈ s'.log) (h : NameTaken db₀ s thing) : NameTaken db₀ s' thing := by
  cases thing with
  | object key => exact Naming.Used.mono h hlog
  | _ => exact hissued _ h

/-- **What an event enters is new**, and belongs to one organization. -/
theorem entersThing_new (hs : TenantInv db₀ s) (hpre : TenantPre p s q)
    (hrun : q.run P p c s.db = some (db', x)) (h : entersThing thing o ⟨p, r, s.db, q, x⟩) :
    ¬ NameTaken db₀ s thing ∧ NameTaken db₀ ⟨db', ⟨p, r, s.db, q, x⟩ :: s.log⟩ thing ∧
      ∀ o', entersThing thing o' ⟨p, r, s.db, q, x⟩ → o' = o := by
  unfold entersThing at h ⊢
  split at h
  · next heq =>
    cases heq
    obtain ⟨rfl, rfl⟩ := h
    obtain ⟨hnew, hissued⟩ := FormStmt.answer_create hrun
    exact ⟨hnew, hissued, fun o' h' => h'.2.symm⟩
  · next n now answer heq =>
    cases heq
    obtain ⟨rfl, rfl⟩ := h
    have hinserted : inserted ⟨p, r, s.db, .submissions (.insert n now), .ok answer⟩ =
      some answer := rfl
    obtain ⟨hnew, hissued, -⟩ := id_of_inserted hrun hinserted
    have hmem : answer.1.id ∈ db'.issued := hissued ▸ List.mem_cons_self
    exact ⟨hnew, hmem, fun o' h' => h'.2.symm⟩
  · next upload row heq =>
    cases heq
    rcases UploadStmt.run_insert hrun with
      ⟨⟨e, heq⟩, -⟩ | ⟨row', heq, hobject, hid, hnew, -, rfl⟩ <;>
      cases heq
    obtain ⟨rfl | rfl, rfl⟩ := h
    · refine ⟨hid ▸ hnew, ?_, fun o' h' => h'.2.symm⟩
      exact List.mem_cons.mpr (.inl hid)
    · have hheld : keyNames.Held p row.object_key s.log := hpre.held (congrArg some hobject.symm)
      refine ⟨(hs.keys.held _ _ hheld).2, ?_, fun o' h' => h'.2.symm⟩
      exact Naming.used_cons.mpr (.inl ⟨p, rfl, congrArg some hobject.symm, row, rfl⟩)
  · next heq =>
    cases heq
    obtain ⟨rfl, rfl⟩ := h
    obtain ⟨hnew, hissued, -⟩ := WebhookStmt.answer_create hrun
    exact ⟨hnew, hissued, fun o' h' => h'.2.symm⟩
  · exact h.elim

/-! ### What is made was entered

A statement may make rows speak of things it has not entered itself: a submission of its form, a
delivery of its endpoint. The request was told where these belong. -/

/-- Two things of one organization have the same owner. -/
theorem TenantInv.together (hs : TenantInv db₀ s) {thing' : Thing}
    (h : Together thing thing' s.log) (hown : own db₀ s.log thing o) :
    own db₀ s.log thing' o := by
  obtain ⟨o', htold, htold'⟩ := h
  exact hs.settled.unique thing o o' hown (hs.told _ _ htold) ▸ hs.told _ _ htold'

theorem TenantInv.write (hs : TenantInv db₀ s) {w : Write} (hw : w.Told s.log)
    (h : w.Makes s.db thing o) : own db₀ s.log thing o := by
  cases w with
  | submission row => exact h.2 ▸ hs.told _ _ (hw thing h.1)
  | outbox_event ev => exact h.2 ▸ hs.told _ _ (hw thing h.1)
  | claim_uploads ids submission_id =>
    obtain ⟨rfl, id, hid, hm⟩ := h
    obtain ⟨key, form_id, hupload, hobject, hform⟩ := hw id hid
    exact hs.together hform (hs.together hobject (hs.together hupload (hs.placed _ _ hm)))
  | _ => exact h.elim

/-- **What a statement makes the rows say was entered**, if it keeps to what the trace says. -/
theorem own_of_makes (hs : TenantInv db₀ s) (hpre : TenantPre p s q)
    (hrun : q.run P p c s.db = some (db', x)) (h : Makes s.db thing o q x) :
    own db₀ (⟨p, r, s.db, q, x⟩ :: s.log) thing o := by
  have hown : own db₀ s.log thing o → own db₀ (⟨p, r, s.db, q, x⟩ :: s.log) thing o :=
    fun hown => hown.mono fun _ => List.mem_cons_of_mem _
  have henters : entersThing thing o ⟨p, r, s.db, q, x⟩ →
      own db₀ (⟨p, r, s.db, q, x⟩ :: s.log) thing o :=
    fun henters => .of_enters List.mem_cons_self henters
  unfold Makes at h
  split at h
  · exact henters ⟨List.mem_singleton.mp h.1, h.2⟩
  · next upload row =>
    obtain ⟨hform, horganization⟩ := UploadStmt.answer_insert hrun
    rcases UploadStmt.run_insert hrun with ⟨⟨e, heq⟩, -⟩ | ⟨row', heq, -, -, -, hunclaimed, -⟩ <;>
      cases heq
    obtain ⟨hthing, rfl⟩ := h
    simp only [things, hunclaimed, Option.toList_none, List.map_nil, List.mem_cons,
      List.not_mem_nil, or_false] at hthing
    rcases hthing with rfl | rfl | rfl
    · exact henters ⟨.inl rfl, rfl⟩
    · exact henters ⟨.inr rfl, rfl⟩
    · have htold : Told (.form row.form_id) row.organization_id s.log := by
        rw [hform, horganization]
        exact hpre.2
      exact hown (hs.told _ _ htold)
  · next organization_id form_id url secret description row =>
    obtain ⟨-, -, horganization, hform⟩ := WebhookStmt.answer_create hrun
    obtain ⟨hthing, rfl⟩ := h
    simp only [things, hform, List.mem_cons, List.mem_map, Option.mem_toList] at hthing
    rcases hthing with rfl | ⟨id, hid, rfl⟩
    · exact henters ⟨rfl, rfl⟩
    · exact hown (horganization ▸ hs.told _ _ (hpre id hid))
  · next organization_id id changes row =>
    obtain ⟨rfl, form_id, hform, rfl⟩ := h
    exact hown (hs.told _ _ (hpre form_id hform))
  · next organization_id submission_id payload endpoints n =>
    obtain ⟨⟨form_id, htogether, hform⟩, hendpoints⟩ := hpre
    obtain ⟨rfl, rfl | ⟨id, hid, rfl⟩⟩ := h
    · obtain ⟨o', hsubmission, hform'⟩ := htogether
      have heq := hs.settled.unique _ _ _ (hs.told _ _ hform') (hs.told _ _ hform)
      exact hown (heq ▸ hs.told _ _ hsubmission)
    · exact hown (hs.told _ _ (hendpoints id hid))
  · obtain ⟨w, hw, hmakes⟩ := h
    exact hown (hs.write (hpre w hw) hmakes)
  · exact h.elim

/-! ### Every step -/

/-- What leaves the rows alone does not change what they say. -/
theorem TenantInv.of_same (hs : TenantInv db₀ s) (hforms : SameForms s.db db')
    (hwebhooks : SameWebhooks s.db db') (hissued : db'.issued = s.db.issued)
    (hkeys : db'.issued_keys = s.db.issued_keys) : TenantInv db₀ ⟨db', s.log⟩ where
  keys := hs.keys.mono fun _ hkey => hkeys ▸ hkey
  settled := hs.settled.mono fun _ =>
    NameTaken.mono (fun _ hn => hissued ▸ hn) fun _ => id
  placed := fun thing o hm =>
    hs.placed thing o (TenantsFrom.places (.of_same hforms hwebhooks) hm)
  told := hs.told

/-- **What one statement preserves.** A row that places something placed it before, or the
statement has made it do so; then the request was told that it belongs there, which by the
invariant means that it was entered there. What is entered now was not there before, so nothing
gets a second owner. -/
theorem TenantInv.effect (hs : TenantInv db₀ s) (hpre : TenantPre p s q)
    (h : G.Effect (store P) p r q s x s') : TenantInv db₀ s' := by
  have hkeys : KeysFresh db₀ s' := hs.keys.effect hpre h
  cases h with
  | @fail failure _ =>
    have hown : ∀ {thing o}, own db₀ s.log thing o →
        own db₀ (⟨p, r, s.db, q, .error failure⟩ :: s.log) thing o :=
      fun hown => hown.mono fun _ => List.mem_cons_of_mem _
    have hlog : TenantInv db₀ ⟨s.db, ⟨p, r, s.db, q, .error failure⟩ :: s.log⟩ := by
      refine ⟨hkeys, hs.settled.idle
        (fun _ => NameTaken.mono (fun _ => id) fun _ => List.mem_cons_of_mem _)
        fun _ _ => not_entersThing_error, fun thing o hm => hown (hs.placed _ _ hm),
        fun thing o htold => ?_⟩
      obtain ⟨e, he, htold⟩ := htold
      rcases List.mem_cons.mp he with rfl | he
      · exact hown (hs.placed _ _ (htold.resolve_left not_entersThing_error))
      · exact hown (hs.told _ _ ⟨e, he, htold⟩)
    exact hlog.of_same ⟨rfl, rfl, rfl⟩ ⟨rfl, rfl, rfl⟩ rfl rfl
  | @run c db' x _ hrun =>
    obtain ⟨new, hissued⟩ := Stmt.issued_mono hrun
    have hown : ∀ {thing o}, own db₀ s.log thing o →
        own db₀ (⟨p, r, s.db, q, x⟩ :: s.log) thing o :=
      fun hown => hown.mono fun _ => List.mem_cons_of_mem _
    have htaken : ∀ thing, NameTaken db₀ s thing →
        NameTaken db₀ ⟨db', ⟨p, r, s.db, q, x⟩ :: s.log⟩ thing :=
      fun _ => NameTaken.mono (fun n hn => hissued ▸ List.mem_append_right _ hn)
        fun _ => List.mem_cons_of_mem _
    refine ⟨hkeys, hs.settled.cons htaken fun thing o henters =>
      entersThing_new hs hpre hrun henters,
      fun thing o hm => ?_, fun thing o htold => ?_⟩
    · rcases Stmt.places hrun hm with hm | hmakes
      · exact hown (hs.placed _ _ hm)
      · exact own_of_makes hs hpre hrun hmakes
    · obtain ⟨e, he, htold⟩ := htold
      rcases List.mem_cons.mp he with rfl | he
      · rcases htold with henters | hm
        · exact .of_enters List.mem_cons_self henters
        · exact hown (hs.placed _ _ hm)
      · exact hown (hs.told _ _ ⟨e, he, htold⟩)

theorem TenantInv.start (hdb : Separated db) : TenantInv db ⟨db, []⟩ where
  keys := Naming.fresh_nil fun _ h => h
  settled := .nil hdb.named hdb.agree
  placed := fun _ _ hm => .inl hm
  told := by
    rintro thing o ⟨e, he, -⟩
    exact absurd he List.not_mem_nil

end Steps

/-! ### Every run -/

section Run

variable {d : Deployment} {db : Database} {w w' : World} {thing : Thing} {o o' : Uuid}

theorem tenant_safe (db : Database) :
    (tenantLogic d.platform anything).Safe (fun _ _ _ _ => True) (World.start db) := .start trivial

/-- **What every run preserves.** -/
theorem tenantInv_of_reaches (hdb : Separated db) (h : Reaches d anything (World.start db) w) :
    TenantInv db w.shared := by
  refine Logic.inv_of_reaches (fun _ r _ _ _ _ => wp_told r) (tenant_safe db) (.start hdb)
    (fun _ hpre hs he => hs.effect hpre he) (fun _ hs => ?_) (fun hs => ?_) h
  · exact hs.of_same ⟨rfl, rfl, rfl⟩ ⟨rfl, rfl, rfl⟩ rfl rfl
  · exact hs.of_same ⟨rfl, rfl, rfl⟩ ⟨rfl, rfl, rfl⟩ rfl rfl

/-- Who has arrived later did what it did since then. -/
theorem mem_since_of_new (h : Reaches d anything (World.start db) w)
    (h' : Reaches d anything w w') {e : Event} (hnew : w.procs e.pid = none)
    (he : e ∈ w'.shared.log) : e ∈ w'.shared.since w.shared := by
  have hsafe := Logic.safe_of_reaches (fun _ r _ _ _ _ => wp_told r) (tenant_safe db) h
  rw [h'.log_eq] at he
  rcases List.mem_append.mp he with he | he
  · exact he
  · exact absurd rfl (hsafe.fresh e.pid hnew e he)

/-- **A thing has one organization, for good.** Whatever two rows, in any two states of a run, refer
to one form, submission, upload, object or endpoint: they name the same organization. -/
theorem one_organization (hdb : Separated db) (h : Reaches d anything (World.start db) w)
    (h' : Reaches d anything w w') (hm : Places w.shared.db thing o)
    (hm' : Places w'.shared.db thing o') : o = o' := by
  have hs := tenantInv_of_reaches hdb h
  have hs' := tenantInv_of_reaches hdb (h.trans h')
  have hown : own db w'.shared.log thing o := by
    refine (hs.placed thing o hm).mono fun e he => ?_
    rw [h'.log_eq]
    exact List.mem_append_right _ he
  exact hs'.settled.unique thing o o' hown (hs'.placed thing o' hm')

end Run

/-! ### Two organizations -/

/-- The form of organization 3, with the public handle `survey`. -/
def FormRecord.survey : FormRecord :=
  { FormRecord.sample with
    id := 4
    organization_id := 3
    public_id := "survey" }

/-- Organization 1 with form 2, and organization 3 with form 4; account 8 owns the one, account 9
the other. -/
def Database.twoTenants : Database :=
  { Database.sample with
    organizations := (Table.empty.insertNew ⟨1, "Acme", 0⟩).insertNew ⟨3, "Globex", 0⟩
    organization_members :=
      (Table.empty.insertNew ⟨1, 8, .owner, 0⟩).insertNew ⟨3, 9, .owner, 0⟩
    forms := (Table.empty.insertNew .sample).insertNew .survey
    issued := [1, 2, 3, 4, 8, 9, 18, 19]
    issued_keys := ["contact", "survey"] }

theorem places_twoTenants {thing : Thing} {o : Uuid} (h : Places .twoTenants thing o) :
    thing = .form 2 ∧ o = 1 ∨ thing = .form 4 ∧ o = 3 := by
  cases h with
  | @form f hf ht =>
    have hrows : f = .sample ∨ f = .survey := by simpa using (show f ∈ [.sample, .survey] from hf)
    obtain rfl := List.mem_singleton.mp ht
    rcases hrows with rfl | rfl
    · exact .inl ⟨rfl, rfl⟩
    · exact .inr ⟨rfl, rfl⟩
  | submission h _ | upload h _ | endpoint h _ | delivery h _ | event h _ =>
    exact absurd h List.not_mem_nil

theorem separated_twoTenants : Separated .twoTenants where
  agree := by
    intro thing o o' h h'
    rcases places_twoTenants h with ⟨rfl, rfl⟩ | ⟨rfl, rfl⟩ <;>
      rcases places_twoTenants h' with ⟨heq, rfl⟩ | ⟨heq, rfl⟩ <;> cases heq <;> rfl
  named := by
    intro thing o h
    rcases places_twoTenants h with ⟨rfl, rfl⟩ | ⟨rfl, rfl⟩
    · exact (by decide : 2 ∈ Database.twoTenants.issued)
    · exact (by decide : 4 ∈ Database.twoTenants.issued)

/-- Somebody answers the survey. -/
def answersSurvey : List Step :=
  [.spawn 0 (.submit "survey" [("name", .string "Ben")] ⟨none, none⟩ none), .step 0 {}, .step 0 {},
    .step 0 {}, .step 0 { id := 5 }, .step 0 {}, .step 0 {}]

/-- What is stored then is the second organization's, like the survey. -/
theorem one_organization_survey :
    ∃ row ∈ (Deployment.sample.play anything answersSurvey .twoTenants).shared.db.submissions.rows,
      row.form_id = 4 ∧ row.organization_id = 3 := by
  have hstored : ∃ row ∈ (Deployment.sample.play anything answersSurvey
      .twoTenants).shared.db.submissions.rows, row.form_id = 4 := by decide +kernel
  obtain ⟨row, hrow, hform⟩ := hstored
  have hsurvey : Places (World.start .twoTenants).shared.db (.form 4) 3 :=
    .form (f := .survey) (by decide) (List.mem_singleton.mpr rfl)
  refine ⟨row, hrow, hform, ?_⟩
  exact (one_organization separated_twoTenants .refl
    (Deployment.sample.reaches_play anything answersSurvey _) hsurvey
    (.submission hrow (by simp [things, hform]))).symm

end SubmitSnap
