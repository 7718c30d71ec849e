import SubmitSnap.Footprints

/-!
# Schema versions: which fields a version number stands for

The version of a form is raised whenever its fields change, and every submission is stamped with
the version it was validated against, so that answers given to an older field set stay
interpretable. An update loads the row, compares the fields it is about to write with the fields it
has loaded, and lets the database raise the version or not. Between the two somebody else may have
changed the fields: the update then writes its old list back under the new number.

`VersionNamesFields` is the property, read off the trace: what submissions have read, and what they
have stored. It holds in every run in which no update overwrites fields without raising the version.

## The argument

Versions and fields of a form advance together: an update raises the version, or the fields are
the same before and after it (`Advances`). This is a relation between two states of a row, it is
transitive, and every statement of the regime respects it; so whatever has been read of a form,
its row has advanced from there. Take two readings under one version: the later one has advanced
from the earlier one without a higher version, so the fields are the same.

Deleted forms do not disturb this, since an identifier is never used for a second form.

## Main results

* `versionNamesFields_of_reaches` — the property, in the runs of `fieldsStand`.
* `not_versionNamesFields` — an edit of the name lands after an edit of the fields.
-/

namespace SubmitSnap

open Interleave

/-- The form row a submission reads, with the name it runs under. -/
def formRead : Event → Option (ℕ × FormRecord)
  | ⟨p, .submit _ _ _ _, _, .forms (.find_by_public_id _), .ok (some form)⟩ => some (p, form)
  | _ => none

/-- The submissions a request stores, with the name it runs under and its payload. -/
def submissionsStored : Event → List (ℕ × Map × SubmissionRecord)
  | ⟨p, .submit _ payload _ _, _, .commit writes, .ok _⟩ =>
    (writes.filterMap Write.stored).map fun row => (p, payload, row)
  | _ => []

/-- The submission running as `p` has read the form row `form`. -/
def ReadForm (p : ℕ) (form : FormRecord) (log : List Event) : Prop :=
  (p, form) ∈ log.filterMap formRead

/-- The submission of `payload` running as `p` has stored `row`. -/
def StoredSubmission (p : ℕ) (payload : Map) (row : SubmissionRecord) (log : List Event) : Prop :=
  (p, payload, row) ∈ log.flatMap submissionsStored

/-- `row` is what a submission of `payload` to `form` stores. -/
structure StampedBy (P : Platform) (payload : Map) (form : FormRecord) (row : SubmissionRecord) :
    Prop where
  form_id : row.form_id = form.id
  schema_version : row.schema_version = form.schema_version
  validated : validate_submission P form.schema payload = .ok row.data

/-- The one form row `p` has read is `form`. -/
def Loaded (p : ℕ) (form : FormRecord) (log : List Event) : Prop :=
  ReadForm p form log ∧ ∀ form', ReadForm p form' log → form' = form

/-- Every submission was validated against the one form row its request has read, and any two of the
same form and version against the same list of fields. -/
structure VersionNamesFields (P : Platform) (log : List Event) : Prop where
  stamped : ∀ p payload row, StoredSubmission p payload row log →
    ∃ form, Loaded p form log ∧ StampedBy P payload form row
  agree : ∀ p payload row form p' payload' row' form',
    StoredSubmission p payload row log → ReadForm p form log →
    StoredSubmission p' payload' row' log → ReadForm p' form' log →
    row.form_id = row'.form_id → row.schema_version = row'.schema_version →
    form.schema.fields = form'.schema.fields

/-- The statement replaces the fields of a form by different ones and leaves the version alone. -/
def overwritesFields (db : Database) : Stmt → Prop
  | .forms (.replace_definition organization_id id _ schema false _ _ _ _) =>
    ∃ f ∈ db.forms.rows, f.organization_id = organization_id ∧ f.id = id ∧
      f.schema.fields ≠ schema.fields
  | _ => False

/-- The runs in which an update that has found the fields unchanged is written while they are. -/
abbrev fieldsStand : Regime :=
  (Regime.free fun _ => True).avoiding fun _ _ q s => overwritesFields s.db q

/-! ### The table of forms

All other statements leave forms alone or delete some. The statements on forms either keep the
fields and the version, or are the one that writes definitions, for which the regime says that the
version is raised if the fields change. -/

/-- `f'` is a later state of the form `f`, under a higher version or with the same fields. -/
structure Advances (f f' : FormRecord) : Prop where
  id : f'.id = f.id
  fields : f.schema_version < f'.schema_version ∨
    f'.schema_version = f.schema_version ∧ f'.schema.fields = f.schema.fields

theorem Advances.refl (f : FormRecord) : Advances f f := ⟨rfl, .inr ⟨rfl, rfl⟩⟩

theorem Advances.trans {f f' f'' : FormRecord} (h : Advances f f') (h' : Advances f' f'') :
    Advances f f'' := by
  refine ⟨h'.id.trans h.id, ?_⟩
  rcases h.fields with hlt | ⟨heq, hfields⟩
  · refine .inl ?_
    rcases h'.fields with hlt' | ⟨heq', -⟩
    · exact hlt.trans hlt'
    · rwa [heq']
  · rcases h'.fields with hlt' | ⟨heq', hfields'⟩
    · exact .inl (heq ▸ hlt')
    · exact .inr ⟨heq'.trans heq, hfields'.trans hfields⟩

section Statement

variable {P : Platform} {p : ℕ} {c : Choice} {db db' : Database}

theorem Database.cascadeForm_forms (gone : Uuid → Bool) {f : FormRecord}
    (hf : f ∈ (db.cascadeForm gone).forms.rows) : f ∈ db.forms.rows :=
  (Table.mem_deleteWhere.mp hf).1

theorem Database.cascadeOrganization_forms (gone : Uuid) {f : FormRecord}
    (hf : f ∈ (db.cascadeOrganization gone).forms.rows) : f ∈ db.forms.rows :=
  Database.cascadeForm_forms _ hf

/-- Statements that are not the forms' own leave them alone or delete some. -/
theorem Stmt.forms_subset {q : Stmt} {x : Except Failure q.Reply} (hq : ∀ q', q ≠ .forms q')
    (h : q.run P p c db = some (db', x)) {f : FormRecord} (hf : f ∈ db'.forms.rows) :
    f ∈ db.forms.rows := by
  cases hreach : Part.forms.reachedBy q with
  | false =>
    have hsame : db'.forms = db.forms := Stmt.footprint .forms hreach h
    exact hsame ▸ hf
  | true =>
    cases q with
    | forms q => exact absurd rfl (hq q)
    | organizations q =>
      cases q with
      | delete id =>
        simp only [Stmt.run, OrganizationStmt.run] at h
        split at h <;> cases h
        exact Database.cascadeOrganization_forms id hf
      | _ => cases hreach
    | _ => cases hreach

/-- **Where a form comes from.** It was there before and has advanced, or it is new. -/
theorem Stmt.forms_origin {q : Stmt} {x : Except Failure q.Reply}
    (h : q.run P p c db = some (db', x)) (hq : ¬ overwritesFields db q) {f' : FormRecord}
    (hf' : f' ∈ db'.forms.rows) :
    (∃ f ∈ db.forms.rows, Advances f f') ∨ f'.id ∉ db.issued ∧ f'.id ∈ db'.issued := by
  by_cases hforms : ∃ q', q = .forms q'
  · obtain ⟨q', rfl⟩ := hforms
    cases q' with
    | create organization_id name public_id schema notify_emails =>
      simp only [Stmt.run, FormStmt.run] at h
      split at h
      · next hfree =>
        simp only [Bool.and_eq_true] at hfree
        (repeat' split at h) <;> cases h
        · exact .inl ⟨f', hf', .refl f'⟩
        · exact .inl ⟨f', hf', .refl f'⟩
        · exact .inl ⟨f', hf', .refl f'⟩
        · rcases Table.mem_insertNew.mp hf' with hf' | ⟨rfl, -⟩
          · exact .inl ⟨f', hf', .refl f'⟩
          · exact .inr ⟨by simpa [Database.unused] using hfree.1, List.mem_cons_self⟩
      · cases h
    | replace_definition organization_id id name schema schema_changed notify_emails
        success_message redirect_url honeypot_enabled =>
      simp only [Stmt.run, FormStmt.run] at h
      (repeat' split at h) <;> cases h
      · exact .inl ⟨f', hf', .refl f'⟩
      · exact .inl ⟨f', hf', .refl f'⟩
      · obtain ⟨f, hf, ⟨-, rfl⟩ | ⟨-, rfl⟩⟩ := Table.of_mem_updateWhere hf'
        · exact .inl ⟨f, hf, rfl, .inl (Nat.lt_succ_self _)⟩
        · exact .inl ⟨f', hf, .refl f'⟩
      · next hunchanged =>
        obtain ⟨f, hf, ⟨hsel, rfl⟩ | ⟨-, rfl⟩⟩ := Table.of_mem_updateWhere hf'
        · refine .inl ⟨f, hf, rfl, .inr ⟨rfl, ?_⟩⟩
          by_contra hne
          simp only [Bool.and_eq_true, beq_iff_eq] at hsel
          rw [Bool.not_eq_true] at hunchanged
          subst hunchanged
          exact hq ⟨f, hf, hsel.1, hsel.2, Ne.symm hne⟩
        · exact .inl ⟨f', hf, .refl f'⟩
    | set_status organization_id id status =>
      simp only [Stmt.run, FormStmt.run] at h
      split at h <;> cases h
      obtain ⟨f, hf, ⟨-, rfl⟩ | ⟨-, rfl⟩⟩ := Table.of_mem_updateWhere hf'
      · exact .inl ⟨f, hf, rfl, .inr ⟨rfl, rfl⟩⟩
      · exact .inl ⟨f', hf, .refl f'⟩
    | set_public_id organization_id id public_id =>
      simp only [Stmt.run, FormStmt.run] at h
      (repeat' split at h) <;> cases h
      · exact .inl ⟨f', hf', .refl f'⟩
      · obtain ⟨f, hf, ⟨-, rfl⟩ | ⟨-, rfl⟩⟩ := Table.of_mem_updateWhere hf'
        · exact .inl ⟨f, hf, rfl, .inr ⟨rfl, rfl⟩⟩
        · exact .inl ⟨f', hf, .refl f'⟩
    | delete organization_id id =>
      simp only [Stmt.run, FormStmt.run] at h
      (repeat' split at h) <;> cases h
      · exact .inl ⟨f', hf', .refl f'⟩
      · exact .inl ⟨f', Database.cascadeForm_forms _ hf', .refl f'⟩
    | find _ _ | find_by_public_id _ =>
      cases h
      exact .inl ⟨f', hf', .refl f'⟩
  · exact .inl ⟨f', Stmt.forms_subset (fun q' hq' => hforms ⟨q', hq'⟩) h hf', .refl f'⟩

end Statement

/-! ### The invariant -/

/-- What it takes to keep the property: whatever has been read of a form, its row has advanced from
there, so what was read under one version has the same fields.

`seen` connects the log with the table and is the clause that carries the proof. `agree` is
stronger than the claim that follows from it, as it is about all readings and not only about those
whose submission was stored. -/
structure SchemaInv (P : Platform) (s : State) : Prop where
  stamped : ∀ p payload row, StoredSubmission p payload row s.log →
    ∃ form, Loaded p form s.log ∧ StampedBy P payload form row
  agree : ∀ p form p' form', ReadForm p form s.log → ReadForm p' form' s.log →
    form.id = form'.id → form.schema_version = form'.schema_version →
    form.schema.fields = form'.schema.fields
  issued : ∀ f ∈ s.db.forms.rows, f.id ∈ s.db.issued
  seen : ∀ p form, ReadForm p form s.log →
    form.id ∈ s.db.issued ∧ ∀ f ∈ s.db.forms.rows, f.id = form.id → Advances form f

theorem SchemaInv.names {P : Platform} {s : State} (hs : SchemaInv P s) :
    VersionNamesFields P s.log where
  stamped := hs.stamped
  agree := by
    intro p payload row form p' payload' row' form' hstored hread hstored' hread' hid hversion
    obtain ⟨f, hf, hrow⟩ := hs.stamped p payload row hstored
    obtain ⟨f', hf', hrow'⟩ := hs.stamped p' payload' row' hstored'
    obtain rfl := hf.2 form hread
    obtain rfl := hf'.2 form' hread'
    refine hs.agree p form p' form' hread hread' ?_ ?_
    · rw [← hrow.form_id, hid, hrow'.form_id]
    · rw [← hrow.schema_version, hversion, hrow'.schema_version]

/-- A submission reads the form once, and stores what it has validated against what it read. -/
def SchemaPre (P : Platform) (p : ℕ) : Request → Stmt → State → Prop
  | .submit _ _ _ _, .forms (.find_by_public_id _), s => ∀ form, ¬ ReadForm p form s.log
  | .submit _ payload _ _, .commit writes, s => ∀ row, Write.submission row ∈ writes →
    ∃ form, Loaded p form s.log ∧ StampedBy P payload form row
  | _, _, _ => True

section Effect

variable {P : Platform} {p p' : ℕ} {r : Request} {q : Stmt} {x : Except Failure q.Reply}
  {s s' : State} {form : FormRecord} {payload : Map} {row : SubmissionRecord} {log : List Event}
  {e : Event}

theorem formRead_eq_some (h : formRead e = some (p, form)) :
    ∃ handle payload client referer db public_id, e = ⟨p, .submit handle payload client referer, db,
      .forms (.find_by_public_id public_id), .ok (some form)⟩ := by
  unfold formRead at h
  split at h
  · cases h
    exact ⟨_, _, _, _, _, _, rfl⟩
  · cases h

theorem mem_submissionsStored (h : (p, payload, row) ∈ submissionsStored e) :
    ∃ handle client referer db writes, e = ⟨p, .submit handle payload client referer, db,
      .commit writes, .ok ()⟩ ∧ Write.submission row ∈ writes := by
  unfold submissionsStored at h
  split at h
  · obtain ⟨row', hrow, heq⟩ := List.mem_map.mp h
    cases heq
    obtain ⟨w, hw, hstored⟩ := List.mem_filterMap.mp hrow
    cases w <;> cases hstored
    exact ⟨_, _, _, _, _, rfl, hw⟩
  · cases h

theorem readForm_cons : ReadForm p form (e :: log) ↔
    formRead e = some (p, form) ∨ ReadForm p form log := by
  cases h : formRead e <;> simp [ReadForm, h, eq_comm]

theorem storedSubmission_cons : StoredSubmission p payload row (e :: log) ↔
    (p, payload, row) ∈ submissionsStored e ∨ StoredSubmission p payload row log := by
  simp [StoredSubmission]

/-- An event that reads no form leaves what has been read as it is. -/
theorem loaded_cons (h : formRead e = none) : Loaded p form (e :: log) ↔ Loaded p form log := by
  simp [Loaded, readForm_cons, h]

/-- What is read is there. -/
theorem mem_of_reads (h : fieldsStand.Effect (store P) p r q s x s')
    (he : formRead ⟨p, r, s.db, q, x⟩ = some (p', form)) : form ∈ s.db.forms.rows := by
  obtain ⟨_, _, _, _, _, _, heq⟩ := formRead_eq_some he
  cases heq
  obtain ⟨-, c, db', hrun, -⟩ := h.of_ok
  simp only [store, Stmt.run, FormStmt.run, Option.some.injEq, Prod.mk.injEq,
    Except.ok.injEq] at hrun
  exact List.mem_of_find?_eq_some hrun.2

/-- An effect lets every form advance or creates it under a new identifier. -/
theorem forms_origin_of_effect (h : fieldsStand.Effect (store P) p r q s x s') :
    (∃ n, s'.db.issued = n ++ s.db.issued) ∧ ∀ f' ∈ s'.db.forms.rows,
      (∃ f ∈ s.db.forms.rows, Advances f f') ∨ f'.id ∉ s.db.issued ∧ f'.id ∈ s'.db.issued := by
  cases h with
  | fail _ => exact ⟨⟨[], rfl⟩, fun f' hf' => .inl ⟨f', hf', .refl f'⟩⟩
  | run hadmits hrun =>
    exact ⟨Stmt.issued_mono hrun, fun f' hf' => Stmt.forms_origin hrun hadmits.2 hf'⟩

/-- Every statement keeps the invariant. A form that is read now is in the table, so by `seen` it
has advanced from whatever was read of it before; if the version is the same, so are the fields.
And whatever has been read has still been advanced from, since every statement of the regime lets
the rows advance and new forms have new identifiers. -/
theorem SchemaInv.effect (hs : SchemaInv P s) (hpre : SchemaPre P p r q s)
    (h : fieldsStand.Effect (store P) p r q s x s') : SchemaInv P s' := by
  obtain ⟨⟨n, hn⟩, horigin⟩ := forms_origin_of_effect h
  have hmono : ∀ {m}, m ∈ s.db.issued → m ∈ s'.db.issued := fun hm => by
    rw [hn]
    exact List.mem_append_right _ hm
  -- What a row has advanced from, it still has.
  have hadvance : ∀ {form}, form.id ∈ s.db.issued →
      (∀ f ∈ s.db.forms.rows, f.id = form.id → Advances form f) →
      ∀ f' ∈ s'.db.forms.rows, f'.id = form.id → Advances form f' := by
    intro form hissued hform f' hf' hid
    rcases horigin f' hf' with ⟨f, hf, hadv⟩ | ⟨hnew, -⟩
    · exact (hform f hf (hadv.id.symm.trans hid)).trans hadv
    · rw [hid] at hnew
      exact absurd hissued hnew
  refine ⟨?_, ?_, ?_, ?_⟩
  · intro p' payload row hstored
    rw [h.log_eq] at hstored ⊢
    rcases storedSubmission_cons.mp hstored with hnew | hstored
    · obtain ⟨_, _, _, _, writes, heq, hrow⟩ := mem_submissionsStored hnew
      cases heq
      obtain ⟨form, hform, hstamped⟩ := hpre row hrow
      exact ⟨form, (loaded_cons rfl).mpr hform, hstamped⟩
    · obtain ⟨form, hform, hstamped⟩ := hs.stamped p' payload row hstored
      refine ⟨form, ⟨readForm_cons.mpr (.inr hform.1), fun form' hform' => ?_⟩, hstamped⟩
      rcases readForm_cons.mp hform' with hnew | hform'
      · obtain ⟨_, _, _, _, _, _, heq⟩ := formRead_eq_some hnew
        cases heq
        exact absurd hform.1 (hpre form)
      · exact hform.2 form' hform'
  · intro p₁ form p₂ form' h₁ h₂ hid hversion
    rw [h.log_eq] at h₁ h₂
    rcases readForm_cons.mp h₁ with he | h₁ <;> rcases readForm_cons.mp h₂ with he' | h₂
    · cases he.symm.trans he'
      rfl
    · rcases ((hs.seen _ _ h₂).2 form (mem_of_reads h he) hid).fields with hlt | ⟨-, hfields⟩
      · rw [hversion] at hlt
        exact absurd hlt (lt_irrefl _)
      · exact hfields
    · rcases ((hs.seen _ _ h₁).2 form' (mem_of_reads h he') hid.symm).fields with
        hlt | ⟨-, hfields⟩
      · rw [hversion] at hlt
        exact absurd hlt (lt_irrefl _)
      · exact hfields.symm
    · exact hs.agree _ _ _ _ h₁ h₂ hid hversion
  · intro f' hf'
    rcases horigin f' hf' with ⟨f, hf, hadv⟩ | ⟨-, hissued⟩
    · rw [hadv.id]
      exact hmono (hs.issued f hf)
    · exact hissued
  · intro p' form hread
    rw [h.log_eq] at hread
    rcases readForm_cons.mp hread with he | hread
    · have hform := mem_of_reads h he
      have hissued := hs.issued form hform
      refine ⟨hmono hissued, hadvance hissued fun f hf hid => ?_⟩
      rw [Table.eq_of_key_eq _ hf hform hid]
      exact .refl form
    · obtain ⟨hissued, hform⟩ := hs.seen p' form hread
      exact ⟨hmono hissued, hadvance hissued hform⟩

end Effect

/-- The logic of schema versions: nobody relies on anybody. -/
def schemaLogic (P : Platform) : Logic fieldsStand (store P) where
  inv := SchemaInv P
  rely _ _ _ := True
  pre := SchemaPre P
  rely_refl _ _ := trivial
  rely_trans _ _ := trivial
  sound hs hpre h := ⟨hs.effect hpre h, fun _ _ => trivial⟩
  stop_sound _ hs := ⟨⟨hs.stamped, hs.agree, hs.issued, hs.seen⟩, fun _ _ => trivial⟩
  pass_sound hs := ⟨⟨hs.stamped, hs.agree, hs.issued, hs.seen⟩, fun _ => trivial⟩

/-! ### The script of a submission -/

/-- Statements that read no form, and store only submissions satisfying `good`. -/
def StoresOnly (good : SubmissionRecord → Prop) : Stmt → Prop
  | .forms (.find_by_public_id _) => False
  | .commit writes => ∀ row, Write.submission row ∈ writes → good row
  | _ => True

/-- An insert answers with the row it was asked for. -/
def InsertAnswers : (q : Stmt) → Except Failure q.Reply → Prop
  | .submissions (.insert n now), .ok (row, _) => ∃ id, row = n.row id now
  | _, _ => True

section Script

variable {good : SubmissionRecord → Prop} {n : NewSubmission}

/-- The writes of a submission store that submission and no other. -/
theorem good_of_mem_submission_writes {row row' : SubmissionRecord} {event : Option OutboxEvent}
    (hrow : good row) (h : Write.submission row' ∈ FormService.submission_writes row event) :
    good row' := by
  simp only [FormService.submission_writes, List.mem_cons, Write.submission.injEq, List.mem_map,
    reduceCtorEq, and_false, exists_false, or_false] at h
  rwa [h]

theorem insert_submission_does (hgood : ∀ id now, good (n.row id now)) :
    (FormService.insert_submission n).Does (StoresOnly good) InsertAnswers fun _ => True := by
  have hend : StoresOnly good .rollback ∧ ∀ a, InsertAnswers .rollback a → True :=
    ⟨trivial, fun _ _ => trivial⟩
  simp only [FormService.insert_submission, transaction, Script.does_ensuring, Script.does_bind,
    Script.does_query, Script.pure_eq, Script.does_ret]
  refine ⟨trivial, fun now _ => ⟨trivial, fun answer hrow => ?_, fun _ _ => hend⟩,
    fun _ _ => hend⟩
  obtain ⟨row, event⟩ := answer
  obtain ⟨id, rfl⟩ := hrow
  exact ⟨fun row' => good_of_mem_submission_writes (hgood id now), fun _ _ => hend, fun _ _ => hend⟩

theorem insert_claiming_files_does {answers : List (String × String)}
    (hgood : ∀ files id now, good ({ n with files }.row id now)) :
    (FormService.insert_claiming_files n answers).Does (StoresOnly good) InsertAnswers
      fun _ => True := by
  have hend : StoresOnly good .rollback ∧ ∀ a, InsertAnswers .rollback a → True :=
    ⟨trivial, fun _ _ => trivial⟩
  simp only [FormService.insert_claiming_files, transaction, Script.does_ensuring,
    Script.does_bind, Script.does_query]
  refine ⟨trivial, fun now _ => ⟨trivial, fun recorded _ => ?_, fun _ _ => hend⟩,
    fun _ _ => hend⟩
  cases check_file_references recorded answers with
  | error e => exact hend
  | ok metadata =>
    refine ⟨trivial, fun answer hrow => ⟨trivial, fun claimed _ => ?_, fun _ _ => hend⟩,
      fun _ _ => hend⟩
    obtain ⟨row, event⟩ := answer
    obtain ⟨id, rfl⟩ := hrow
    split
    · exact hend
    · simp only [Script.does_bind, Script.does_query, Script.pure_eq, Script.does_ret]
      refine ⟨fun row' hrow' => ?_, fun _ _ => hend, fun _ _ => hend⟩
      simp only [List.mem_append, List.mem_singleton, reduceCtorEq, or_false] at hrow'
      exact good_of_mem_submission_writes (hgood _ id now) hrow'

end Script

section Submit

variable {P : Platform} {p : ℕ} {r : Request} {s s' : State} {form : FormRecord}

theorem readForm_iff_of_others (h : Others p s s') :
    ReadForm p form s'.log ↔ ReadForm p form s.log := by
  have hpid : ∀ {e}, formRead e = some (p, form) → e.pid = p := fun he => by
    obtain ⟨_, _, _, _, _, _, rfl⟩ := formRead_eq_some he
    rfl
  simp only [ReadForm, List.mem_filterMap]
  exact exists_congr fun e => and_congr_left fun he => h.mem_iff (hpid he)

theorem Loaded.of_others (hs : Loaded p form s.log) (h : Others p s s') : Loaded p form s'.log :=
  ⟨(readForm_iff_of_others h).mpr hs.1,
    fun form' hform' => hs.2 form' ((readForm_iff_of_others h).mp hform')⟩

theorem insertAnswers_of_effect {q : Stmt} {x : Except Failure q.Reply}
    (h : fieldsStand.Effect (store P) p r q s x s') : InsertAnswers q x := by
  unfold InsertAnswers
  split
  · next n now row event =>
    obtain ⟨-, c, db, hrun, -⟩ := h.of_ok
    simp only [store, Stmt.run, SubmissionStmt.run] at hrun
    (repeat' split at hrun) <;> simp only [Option.some.injEq, Prod.mk.injEq, Except.ok.injEq,
      reduceCtorEq, and_false] at hrun
    all_goals exact ⟨c.id, hrun.2.1.symm⟩
  · trivial

variable {public_id : String} {payload : Map} {client : ClientInfo} {referer : Option String}

/-- A submission that has read nothing yet ends up with the one form row it has read. -/
theorem wp_load_published (hfresh : ∀ e ∈ s.log, e.pid ≠ p) (handle : String) :
    (schemaLogic P).wp p (.submit public_id payload client referer)
      (FormService.load_published handle)
      (fun y s' => ∀ form, y = .ok form → Loaded p form s'.log) s := by
  have hnone : ∀ {s'}, Others p s s' → ∀ form, ¬ ReadForm p form s'.log := by
    intro s' ho form hread
    obtain ⟨e, hmem, he⟩ := List.mem_filterMap.mp ((readForm_iff_of_others ho).mp hread)
    obtain ⟨_, _, _, _, _, _, rfl⟩ := formRead_eq_some he
    exact hfresh _ hmem rfl
  refine Logic.wp_query_bind fun s₁ he => ⟨hnone he.others, fun found s₂ hx _ => ?_, ?_⟩
  · cases found with
    | none => exact fun _ _ form heq => nomatch heq
    | some form =>
      have hloaded : Loaded p form s₂.log := by
        rw [hx.log_eq]
        refine ⟨readForm_cons.mpr (.inl rfl), fun form' hread => ?_⟩
        rcases readForm_cons.mp hread with heq | hread
        · cases heq
          rfl
        · exact absurd hread (hnone he.others form')
      cases hstatus : form.status with
      | published =>
        simp only [hstatus]
        rintro s₃ he' form' ⟨⟩
        exact hloaded.of_others he'.others
      | draft | closed =>
        simp only [hstatus]
        exact fun _ _ form' heq => nomatch heq
  · exact fun _ _ _ _ _ _ form heq => nomatch heq

/-- **A submission keeps to its preconditions.** -/
theorem wp_submit {d : Deployment} (hs : SchemaInv d.platform s)
    (hfresh : ∀ e ∈ s.log, e.pid ≠ p) :
    (schemaLogic d.platform).wp p (.submit public_id payload client referer)
      (FormService.submit d public_id payload client referer) (fun _ _ => True) s := by
  refine Logic.wp_bind hs (wp_load_published hfresh public_id) (fun form s' hs' hform => ?_)
    fun _ _ _ _ => trivial
  refine Logic.wp_of_does (StoresOnly (StampedBy d.platform payload form)) InsertAnswers
    (fun s => Loaded p form s.log) (fun _ => True)
    (fun hK he => hK.of_others he.others) ?_ ?_ (fun _ _ => trivial) ?_ (hform form rfl)
  · -- Whatever is stored fits the one form row read.
    intro q s' hq _ hK
    cases q with
    | forms q =>
      cases q with
      | find_by_public_id _ => exact hq.elim
      | _ => trivial
    | commit writes => exact fun row hrow => ⟨form, hK, hq row hrow⟩
    | _ => trivial
  · -- No other form row is read.
    intro q s₁ x s₂ hq _ hK hx _
    refine ⟨insertAnswers_of_effect hx, ?_⟩
    rw [hx.log_eq]
    refine (loaded_cons ?_).mpr hK
    unfold formRead
    split
    · next heq =>
      cases heq
      exact hq.elim
    · rfl
  · simp only [Script.does_bind, Script.does_query]
    refine ⟨trivial, fun allowed _ => ?_, fun _ _ => trivial⟩
    split
    · trivial
    · split
      · trivial
      · next answers hvalid =>
        split
        · refine Script.does_bind.mpr ((insert_submission_does fun id now => ?_).mono ?_)
          · exact ⟨rfl, rfl, hvalid⟩
          · rintro (e | id) _ <;> trivial
        · refine Script.does_bind.mpr ((insert_claiming_files_does fun files id now => ?_).mono ?_)
          · exact ⟨rfl, rfl, hvalid⟩
          · rintro (e | id) _ <;> trivial

end Submit

variable {d : Deployment} {db : Database} {w : World}

/-- **A version number names a list of fields**, for the submissions stamped with it, in every run
in which no update overwrites fields it has not seen under the version it leaves alone. -/
theorem versionNamesFields_of_reaches (hdb : ∀ f ∈ db.forms.rows, f.id ∈ db.issued)
    (h : Reaches d fieldsStand (World.start db) w) :
    VersionNamesFields d.platform w.shared.log := by
  have hstart : SchemaInv d.platform (World.start db).shared :=
    ⟨fun _ _ _ h => absurd h List.not_mem_nil, fun _ _ _ _ h => absurd h List.not_mem_nil, hdb,
      fun _ _ h => absurd h List.not_mem_nil⟩
  have hspec : ∀ p r s, fieldsStand.spawns r → SchemaInv d.platform s → (∀ e ∈ s.log, e.pid ≠ p) →
      (schemaLogic d.platform).wp p r (Request.code d r) (fun _ _ => True) s := by
    intro p r s _ hs hfresh
    cases r with
    | submit public_id payload client referer => exact wp_submit hs hfresh
    | _ => exact Logic.wp_of_pre (fun _ => trivial) _ s
  have hsafe : (schemaLogic d.platform).Safe (fun _ _ _ _ => True) w :=
    Logic.safe_of_reaches hspec (.start hstart) h
  have hinv : SchemaInv d.platform w.shared := hsafe.inv
  exact hinv.names

/-! ### Two edits that overlap

The first edit means to change the name only. It writes the fields it has loaded, since an update
writes the whole definition, and leaves the version alone, since it has not changed the fields as
far as it knows. -/

instance : DecidablePred (overwritesFields db) := fun q => by
  delta overwritesFields
  split <;> infer_instance

/-- An edit of the name and an edit of the fields have both loaded the form. -/
def overlappingEdits : List Step :=
  [.spawn 0 (.update_form 1 2 ⟨some "Write to us", none, none, none, none, none⟩ 8),
    .step 0 {}, .step 0 {},
    .spawn 1 (.update_form 1 2 ⟨none, some (.sample ["email"]), none, none, none, none⟩ 9),
    .step 1 {}, .step 1 {}]

/-- A visitor submits an empty form. -/
def visit (p : ℕ) (id : Uuid) : List Step :=
  [.spawn p (.submit "contact" [] ⟨none, none⟩ none), .step p {}, .step p {}, .step p {},
    .step p { id }, .step p {}]

/-- The fields are written first: one visitor sees the new ones and another, after the name has been
written, the old ones again. -/
def staleEdit : List Step :=
  overlappingEdits ++ [.step 1 {}] ++ visit 2 30 ++ [.step 0 {}] ++ visit 3 31

/-- **A version number names two lists of fields**: an edit of the name brings the old list back. -/
theorem not_versionNamesFields : ¬ ∀ w, Reaches .sample (Regime.free fun _ => True)
    (World.start .sample) w → VersionNamesFields .sample w.shared.log := by
  intro hall
  have hnames := hall _ (Deployment.sample.reaches_play _ staleEdit .sample)
  have hlog : let log := (Deployment.sample.play (Regime.free fun _ => True) staleEdit
      .sample).shared.log
      ∃ a ∈ log.flatMap submissionsStored, ∃ f ∈ log.filterMap formRead,
        ∃ a' ∈ log.flatMap submissionsStored, ∃ f' ∈ log.filterMap formRead,
          a.1 = f.1 ∧ a'.1 = f'.1 ∧ a.2.2.form_id = a'.2.2.form_id ∧
          a.2.2.schema_version = a'.2.2.schema_version ∧
          f.2.schema.fields ≠ f'.2.schema.fields := by
    decide +kernel
  obtain ⟨⟨p, payload, row⟩, hrow, ⟨_, form⟩, hform, ⟨p', payload', row'⟩, hrow', ⟨_, form'⟩,
    hform', rfl, rfl, hid, hversion, hfields⟩ := hlog
  exact hfields (hnames.agree p payload row form p' payload' row' form' hrow hform hrow' hform' hid
    hversion)

/-- The name is written first, while the row still has the fields that edit has loaded. -/
theorem versionNamesFields_nameFirst :
    let log := (Deployment.sample.play fieldsStand
      (overlappingEdits ++ [.step 0 {}] ++ visit 2 30 ++ [.step 1 {}] ++ visit 3 31)
      .sample).shared.log
    (log.flatMap submissionsStored).length = 2 ∧ VersionNamesFields .sample log :=
  ⟨by decide +kernel, versionNamesFields_of_reaches (by decide +kernel)
    (Deployment.sample.reaches_play fieldsStand _ .sample)⟩

end SubmitSnap
