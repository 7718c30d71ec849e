import SubmitSnap.Interleave.Registry
import SubmitSnap.Tenant.Register
import SubmitSnap.Form.Sound

/-!
# Public handles

A form is reached from outside by its public handle, and rotating the handle is how a leaked link is
taken out of service. That this works in any interleaving rests on where handles come from: each is
freshly generated, and given to one form by whoever it was generated for. So a handle never leads to
two forms, at whatever two moments it is looked up, and one that no form has any more never comes
back: nobody who arrives later with the old link is served.

## The argument

The pattern is that of the register of organizations, with handles for things: a handle is entered
when it is given to a form, it is given once, and the rows repeat what was given. A handle that no
form has any more cannot be given again, since giving it would use a key that has been used
(`Retired.effect`); so it stays nobody's. Whoever arrives with it looks it up first and finds
nothing.

For a rotation that has ended well one has to go back to the moment at which it set the new
handle. From then on the form has another one, and no other form ever had the old one
(`gone_of_set`).

## Main definitions

* `givesHandle` — the event gives a handle to a form.
* `HandleInv` — the rows repeat what was handed out.

## Main results

* `one_form` — a handle leads to one form.
* `retired_handle` — who arrives with a retired handle is not served.
* `rotated_handle` — rotating a form's handle retires the one it had.
* `submission_of_handle` — what is submitted under a handle is stored with that form.
-/

namespace SubmitSnap

open Interleave
open Interleave.Script

/-- The event gives the handle to the form. -/
def givesHandle (public_id : String) (id : Uuid) : Event → Prop
  | ⟨_, _, _, .forms (.create _ _ key _ _), .ok form⟩ => key = public_id ∧ form.id = id
  | ⟨_, _, _, .forms (.set_public_id _ id' key), .ok _⟩ => key = public_id ∧ id' = id
  | _ => False

/-- A form has the handle. -/
def Names (db : Database) (public_id : String) (id : Uuid) : Prop :=
  ∃ f ∈ db.forms.rows, f.public_id = public_id ∧ f.id = id

/-- Whose handle it is, by the trace and by what was there before it began. -/
abbrev handleOf (db₀ : Database) (log : List Event) : String → Uuid → Prop :=
  Registered (Names db₀) givesHandle log

/-- The forms have the handles they were given. -/
structure HandleInv (db₀ : Database) (s : State) : Prop where
  keys : KeysFresh db₀ s
  settled : OneOwner (handleOf db₀ s.log) fun key => keyNames.Used (oldKey db₀) key s.log
  named : ∀ public_id id, Names s.db public_id id → handleOf db₀ s.log public_id id

/-- Handles are unique, and were issued. -/
structure HandlesFit (db : Database) : Prop where
  unique : ∀ public_id id id', Names db public_id id → Names db public_id id' → id = id'
  issued : ∀ f ∈ db.forms.rows, f.public_id ∈ db.issued_keys

section Steps

variable {P : Platform} {G : Regime} {p : ℕ} {r : Request} {q : Stmt} {c : Choice} {s s' : State}
  {db db' db₀ : Database} {x : Except Failure q.Reply} {public_id : String} {id : Uuid}

theorem names_of_mem {f : FormRecord} (hf : f ∈ db.forms.rows) : Names db f.public_id f.id :=
  ⟨f, hf, rfl, rfl⟩

/-- **Where a handle comes from**: some form had it, or the statement has just handed it out. -/
theorem Stmt.names (h : q.run P p c db = some (db', x)) (hn : Names db' public_id id) :
    Names db public_id id ∨ givesHandle public_id id ⟨p, r, db, q, x⟩ := by
  obtain ⟨f', hf', rfl, rfl⟩ := hn
  by_cases hforms : ∀ q', q ≠ .forms q'
  · exact .inl (names_of_mem (Stmt.forms_subset hforms h hf'))
  obtain ⟨q', rfl⟩ : ∃ q', q = .forms q' := by simpa using hforms
  cases q' with
  | create organization_id name key schema notify_emails =>
    simp only [Stmt.run, FormStmt.run] at h
    (repeat' split at h) <;> cases h
    · exact .inl (names_of_mem hf')
    · exact .inl (names_of_mem hf')
    · exact .inl (names_of_mem hf')
    rcases Table.mem_insertNew.mp hf' with hf | ⟨rfl, -⟩
    · exact .inl (names_of_mem hf)
    · exact .inr ⟨rfl, rfl⟩
  | set_public_id organization_id id key =>
    simp only [Stmt.run, FormStmt.run] at h
    (repeat' split at h) <;> cases h
    · exact .inl (names_of_mem hf')
    obtain ⟨f, hf, ⟨hsel, rfl⟩ | ⟨-, rfl⟩⟩ := Table.of_mem_updateWhere hf'
    · exact .inr ⟨rfl, (beq_iff_eq.mp (Bool.and_eq_true_iff.mp hsel).2).symm⟩
    · exact .inl (names_of_mem hf)
  | replace_definition _ _ _ _ _ _ _ _ _ | set_status _ _ _ =>
    simp only [Stmt.run, FormStmt.run] at h
    (repeat' split at h) <;> cases h
    all_goals first
      | exact .inl (names_of_mem hf')
      | (obtain ⟨f, hf, ⟨-, rfl⟩ | ⟨-, rfl⟩⟩ := Table.of_mem_updateWhere hf'
         · exact .inl ⟨f, hf, rfl, rfl⟩
         · exact .inl (names_of_mem hf))
  | delete organization_id id =>
    simp only [Stmt.run, FormStmt.run] at h
    (repeat' split at h) <;> cases h
    · exact .inl (names_of_mem hf')
    · exact .inl (names_of_mem (Database.cascadeForm_forms _ hf'))
  | find _ _ | find_by_public_id _ =>
    cases h
    exact .inl (names_of_mem hf')

theorem uses_of_givesHandle (h : givesHandle public_id id ⟨p, r, db, q, x⟩) :
    keyNames.uses p public_id ⟨p, r, db, q, x⟩ := by
  unfold givesHandle at h
  split at h
  · next heq =>
    cases heq
    exact ⟨rfl, congrArg some h.1, _, rfl⟩
  · next heq =>
    cases heq
    exact ⟨rfl, congrArg some h.1, _, rfl⟩
  · exact h.elim

theorem givesHandle_unique {id' : Uuid} (h : givesHandle public_id id ⟨p, r, db, q, x⟩)
    (h' : givesHandle public_id id' ⟨p, r, db, q, x⟩) : id' = id := by
  unfold givesHandle at h h'
  split at h
  · next heq =>
    cases heq
    exact h'.2.symm.trans h.2
  · next heq =>
    cases heq
    exact h'.2.symm.trans h.2
  · exact h.elim

/-- Whoever hands out a handle was given it, and nobody has used it yet. -/
theorem HandleInv.new (hs : HandleInv db₀ s) (hpre : TenantPre p s q)
    (h : givesHandle public_id id ⟨p, r, s.db, q, x⟩) :
    ¬ keyNames.Used (oldKey db₀) public_id s.log :=
  (hs.keys.held p public_id (hpre.held (uses_of_givesHandle h).2.1)).2

/-- **What one statement preserves.** A row has the handle it had, or one that this statement has
just given it, and that one was not used before. So a handle never has two forms by the trace, and
the rows follow the trace. -/
theorem HandleInv.effect (hs : HandleInv db₀ s) (hpre : TenantPre p s q)
    (h : G.Effect (store P) p r q s x s') : HandleInv db₀ s' := by
  have hof : ∀ {public_id id}, handleOf db₀ s.log public_id id → handleOf db₀ s'.log public_id id :=
    fun hof => hof.mono fun _ => h.mem
  refine ⟨hs.keys.effect hpre h, ?_, ?_⟩
  · rw [h.log_eq]
    refine hs.settled.cons (fun _ hused => hused.mono fun _ => List.mem_cons_of_mem _)
      fun public_id id hout => ⟨hs.new hpre hout, ?_, fun id' => givesHandle_unique hout⟩
    exact Naming.used_cons.mpr (.inl ⟨p, uses_of_givesHandle hout⟩)
  · intro public_id id hn
    cases h with
    | fail _ => exact hof (hs.named public_id id hn)
    | run hadmits hrun =>
      rcases Stmt.names hrun hn with hn | hout
      · exact hof (hs.named public_id id hn)
      · exact .of_enters List.mem_cons_self hout

theorem HandleInv.start (hdb : HandlesFit db) : HandleInv db ⟨db, []⟩ where
  keys := Naming.fresh_nil fun _ h => h
  settled := by
    refine .nil (fun public_id id hn => ?_) hdb.unique
    obtain ⟨f, hf, rfl, -⟩ := hn
    exact .inl (hdb.issued f hf)
  named := fun _ _ hn => .inl hn

/-- The handle was some form's, and is nobody's now. -/
structure Retired (db₀ : Database) (public_id : String) (s : State) : Prop where
  inv : HandleInv db₀ s
  used : keyNames.Used (oldKey db₀) public_id s.log
  gone : ∀ id, ¬ Names s.db public_id id

/-- No statement brings a handle back. A form that has it after the statement had it before, which
nobody did, or has been given it now; but only a key that nobody has used can be given, and this
one has been used. -/
theorem Retired.effect (hs : Retired db₀ public_id s) (hpre : TenantPre p s q)
    (h : G.Effect (store P) p r q s x s') : Retired db₀ public_id s' where
  inv := hs.inv.effect hpre h
  used := hs.used.mono fun _ => h.mem
  gone := by
    intro id hn
    cases h with
    | fail _ => exact hs.gone id hn
    | run hadmits hrun =>
      rcases Stmt.names (r := r) hrun hn with hn | hout
      · exact hs.gone id hn
      · exact hs.inv.new hpre hout hs.used

end Steps

/-! ### Who arrives with a handle

Whoever ends well with a handle has looked it up and found a form; this is a fact about the two
scripts that take one. -/

/-- The handle a request arrives with. -/
def Request.handle : Request → Option String
  | submit public_id _ _ _ | upload public_id _ _ _ _ => some public_id
  | _ => none

/-- `p` has looked the handle up and found a form. -/
def FoundBy (p : ℕ) (public_id : String) (log : List Event) : Prop :=
  ∃ r before form, ⟨p, r, before, .forms (.find_by_public_id public_id), .ok (some form)⟩ ∈ log

/-- A logic in which anything may be executed at any time. -/
def freeLogic (P : Platform) (G : Regime) : Logic G (store P) := .ofPre fun _ _ _ _ => True

/-- `p` has found the form of that id, and given it a handle. -/
def Rehandled (p : ℕ) (organization_id form_id : Uuid) (log : List Event) : Prop :=
  (∃ r before form,
    ⟨p, r, before, .forms (.find organization_id form_id), .ok (some form)⟩ ∈ log) ∧
  ∃ r before key reply,
    ⟨p, r, before, .forms (.set_public_id organization_id form_id key), .ok reply⟩ ∈ log

/-- What a request that ends well has done. -/
def Request.Handled (p : ℕ) (log : List Event) : Request → Prop
  | submit public_id _ _ _ | upload public_id _ _ _ _ => FoundBy p public_id log
  | rotate_public_id organization_id form_id _ => Rehandled p organization_id form_id log
  | _ => True

/-- What holds once a request has ended. -/
def HandledPost (p : ℕ) (r : Request) (y : Except r.Err r.Res) (s : State) : Prop :=
  ∀ a, y = .ok a → r.Handled p s.log

section Scripts

variable {P : Platform} {d : Deployment} {G : Regime} {p : ℕ} {r : Request} {s : State} {α : Type}

theorem wp_free {ε : Type} (x : Code ε α) (s : State) :
    (freeLogic P G).wp p r x (fun _ _ => True) s :=
  Logic.wp_of_pre (fun _ => trivial) x s

/-- What is left to do of such a request does not undo what was found. -/
theorem wp_load_published_found (public_id : String) (rest : FormRecord → Code FormError α) :
    (freeLogic P G).wp p r (FormService.load_published public_id >>= rest)
      (fun y s' => ∀ a, y = .ok a → FoundBy p public_id s'.log) s := by
  refine Logic.wp_bind (Ψ := fun y s' => ∀ form, y = .ok form → FoundBy p public_id s'.log) trivial
    ?_ (fun form s₁ _ hfound => ?_) fun _ _ _ _ => nofun
  · refine Logic.wp_query_bind fun s₁ he₁ => ⟨trivial, fun found s₂ hx₂ _ => ?_,
      fun _ _ _ _ _ _ => nofun⟩
    cases found with
    | none => exact fun _ _ => nofun
    | some form =>
      have hfound : ∀ s₃, (freeLogic P G).Env p s₂ s₃ → FoundBy p public_id s₃.log :=
        fun s₃ he₃ => ⟨r, s₁.db, form, he₃.others.mem hx₂.mem_self⟩
      dsimp only
      split
      · exact fun s₃ he₃ _ _ => hfound s₃ he₃
      · exact fun _ _ => nofun
      · exact fun _ _ => nofun
  · refine Logic.wp_mono (Logic.wp_grows (wp_free (rest form) s₁) fun _ he => he)
      fun y s₂ _ hgrows a _ => ?_
    obtain ⟨r', before, form', hmem⟩ := hfound form rfl
    exact ⟨r', before, form', hgrows.2 _ hmem⟩

/-- A rotation that ends well has found the form and set its handle. -/
theorem wp_rotate_handled (organization_id form_id actor_id : Uuid) :
    (freeLogic P G).wp p r (FormService.rotate_public_id organization_id form_id actor_id)
      (fun y s' => ∀ a, y = .ok a → Rehandled p organization_id form_id s'.log) s := by
  refine Logic.wp_bind trivial (wp_free _ s) (fun _ s₁ _ _ => ?_) fun _ _ _ _ => nofun
  refine Logic.wp_bind (Ψ := fun y s' => ∀ form, y = .ok form → ∃ r before form,
    ⟨p, r, before, .forms (.find organization_id form_id), .ok (some form)⟩ ∈ s'.log) trivial
    ?_ (fun form s₂ _ hfound => ?_) fun _ _ _ _ => nofun
  · refine Logic.wp_query_bind fun s₂ he₂ => ⟨trivial, fun found s₃ hx₃ _ => ?_,
      fun _ _ _ _ _ _ => nofun⟩
    cases found with
    | none => exact fun _ _ => nofun
    | some form => exact fun s₄ he₄ _ _ => ⟨r, s₂.db, form, he₄.others.mem hx₃.mem_self⟩
  obtain ⟨r', before, form', hmem⟩ := hfound form rfl
  refine Logic.wp_query_bind fun s₃ he₃ => ⟨trivial, fun key s₄ hx₄ _ => ?_,
    fun _ _ _ _ _ _ => nofun⟩
  refine Logic.wp_query_bind fun s₅ he₅ => ⟨trivial, fun reply s₆ hx₆ _ => ?_,
    fun _ _ _ _ _ _ => nofun⟩
  refine Logic.wp_mono (Logic.wp_grows (wp_free _ s₆) fun _ he => he)
    fun y s₇ _ hgrows a _ => ⟨⟨r', before, form', ?_⟩, r, s₅.db, key, reply, ?_⟩
  · exact hgrows.2 _ (hx₆.mem (he₅.others.mem (hx₄.mem (he₃.others.mem hmem))))
  · exact hgrows.2 _ hx₆.mem_self

theorem wp_handled (r : Request) :
    (freeLogic d.platform G).wp p r (Request.code d r) (HandledPost p r) s := by
  cases r with
  | submit public_id payload client referer => exact wp_load_published_found public_id _
  | upload public_id field_key filename declared_type body =>
    unfold Request.code FormService.upload
    split
    · exact fun _ _ _ => nofun
    · exact wp_load_published_found public_id _
  | rotate_public_id organization_id form_id actor_id => exact wp_rotate_handled _ _ _
  | _ => exact Logic.wp_mono (wp_free _ s) fun _ _ _ _ _ _ => trivial

end Scripts

/-! ### Every run -/

section Run

variable {d : Deployment} {db : Database} {w w' w₁ w₂ w₃ : World} {public_id : String}
  {id id' : Uuid}

theorem told_safe (h : Reaches d anything (World.start db) w) :
    (tenantLogic d.platform anything).Safe (fun _ _ _ _ => True) w :=
  Logic.safe_of_reaches (fun _ r _ _ _ _ => wp_told r) (.start trivial) h

/-- **What every run preserves.** -/
theorem handleInv_of_reaches (hdb : HandlesFit db) (h : Reaches d anything (World.start db) w) :
    HandleInv db w.shared := by
  refine Logic.inv_of_reaches (fun _ r _ _ _ _ => wp_told r) (told_safe .refl) (.start hdb)
    (fun _ hpre hs he => hs.effect hpre he) (fun _ hs => ?_) (fun hs => ?_) h
  · exact ⟨hs.keys, hs.settled, hs.named⟩
  · exact ⟨hs.keys, hs.settled, hs.named⟩

/-- **A handle leads to one form**, whenever it is looked up. -/
theorem one_form (hdb : HandlesFit db) (h : Reaches d anything (World.start db) w)
    (h' : Reaches d anything w w') (hn : Names w.shared.db public_id id)
    (hn' : Names w'.shared.db public_id id') : id = id' := by
  have hs := handleInv_of_reaches hdb h
  have hs' := handleInv_of_reaches hdb (h.trans h')
  have hof : handleOf db w'.shared.log public_id id := by
    refine (hs.named public_id id hn).mono fun e he => ?_
    rw [h'.log_eq]
    exact List.mem_append_right _ he
  exact hs'.settled.unique public_id id id' hof (hs'.named public_id id' hn')

/-- A handle that no form has any more stays nobody's. -/
theorem retired_of_reaches (hdb : HandlesFit db) (h : Reaches d anything (World.start db) w)
    (hn : Names w.shared.db public_id id) (h₁ : Reaches d anything w w₁)
    (hgone : ∀ id, ¬ Names w₁.shared.db public_id id) (h₂ : Reaches d anything w₁ w₂) :
    Retired db public_id w₂.shared := by
  have hs := handleInv_of_reaches hdb h
  have hused : keyNames.Used (oldKey db) public_id w₁.shared.log := by
    refine (hs.settled.taken public_id id (hs.named public_id id hn)).mono fun e he => ?_
    rw [h₁.log_eq]
    exact List.mem_append_right _ he
  have hstart : Retired db public_id w₁.shared :=
    ⟨handleInv_of_reaches hdb (h.trans h₁), hused, hgone⟩
  refine Logic.inv_of_reaches (fun _ r _ _ _ _ => wp_told r) (told_safe (h.trans h₁)) hstart
    (fun _ hpre hs he => hs.effect hpre he) (fun _ hs => ?_) (fun hs => ?_) h₂
  · exact ⟨⟨hs.inv.keys, hs.inv.settled, hs.inv.named⟩, hs.used, hs.gone⟩
  · exact ⟨⟨hs.inv.keys, hs.inv.settled, hs.inv.named⟩, hs.used, hs.gone⟩

theorem handled_of_returned (h : Reaches d anything (World.start db) w) {p : ℕ} {r : Request}
    {a : r.Res} (hreturned : w.Returned p r a) : r.Handled p w.shared.log :=
  (Logic.safe_of_reaches (fun _ r _ _ _ _ => wp_handled r) (.start trivial) h).of_returned
    hreturned a rfl

theorem FoundBy.of_handled {p : ℕ} {r : Request} {log : List Event} (h : r.Handled p log)
    (hr : r.handle = some public_id) : FoundBy p public_id log := by
  cases r <;> cases hr <;> exact h

/-- A handle that was found was some form's. -/
theorem names_of_found (h : Reaches d anything (World.start db) w) {p : ℕ} {r : Request}
    {before : Database} {form : FormRecord}
    (hmem : ⟨p, r, before, .forms (.find_by_public_id public_id), .ok (some form)⟩ ∈ w.shared.log) :
    Names before public_id form.id := by
  obtain ⟨c, db', hrun⟩ := h.answered _ hmem _ rfl
  have hfind : (before.forms.rows.find? fun f => f.public_id == public_id) = some form :=
    Except.ok.inj (congrArg Prod.snd (Option.some.inj hrun))
  have hsel := List.find?_some hfind
  exact ⟨form, List.mem_of_find?_eq_some hfind, beq_iff_eq.mp hsel, rfl⟩

/-- **A retired handle is dead.** Once some form has had the handle and no form has it any more,
nobody who arrives with it ends well, neither with a submission nor with an upload. -/
theorem retired_handle (hdb : HandlesFit db) (h : Reaches d anything (World.start db) w)
    (hn : Names w.shared.db public_id id) (h₁ : Reaches d anything w w₁)
    (hgone : ∀ id, ¬ Names w₁.shared.db public_id id) (h₂ : Reaches d anything w₁ w₂) {p : ℕ}
    (hnew : w₁.procs p = none) {r : Request} (hr : r.handle = some public_id) (a : r.Res) :
    ¬ w₂.Returned p r a := by
  intro hreturned
  have hrun := (h.trans h₁).trans h₂
  obtain ⟨r', before, form, hmem⟩ := FoundBy.of_handled (handled_of_returned hrun hreturned) hr
  -- It was looked up after the handle was retired, so it cannot have been found.
  obtain ⟨w₃, hto, hbefore, -⟩ := h₂.visits_of_mem (mem_since_of_new (h.trans h₁) h₂ hnew hmem)
  exact (retired_of_reaches hdb h hn h₁ hgone hto).gone form.id
    (hbefore ▸ names_of_found hrun hmem)

/-- A form that was found is the organization's. -/
theorem told_of_find (h : Reaches d anything (World.start db) w) {p : ℕ} {r : Request}
    {before : Database} {o : Uuid} {form : FormRecord}
    (hmem : ⟨p, r, before, .forms (.find o id), .ok (some form)⟩ ∈ w.shared.log) :
    Told (.form id) o w.shared.log := by
  obtain ⟨c, db', hrun⟩ := h.answered _ hmem _ rfl
  have hfind : before.formOf o id = some form :=
    Except.ok.inj (congrArg Prod.snd (Option.some.inj hrun))
  have hsel := List.find?_some hfind
  obtain ⟨ho, hid⟩ : form.organization_id = o ∧ form.id = id := by simpa using hsel
  refine ⟨_, hmem, .inr (ho ▸ .form (List.mem_of_find?_eq_some hfind) ?_)⟩
  exact List.mem_singleton.mpr (congrArg Thing.form hid.symm)

/-- Nobody has a form's old handle any more once another has been set. -/
theorem gone_of_set (hfit : HandlesFit db) (hdb : Separated db)
    (h : Reaches d anything (World.start db) w) (hn : Names w.shared.db public_id id)
    (h₁ : Reaches d anything w w₁) {p : ℕ} {r : Request} {o : Uuid} {key : String} {reply : Bool}
    (hx : anything.Effect (store d.platform) p r (.forms (.set_public_id o id key)) w₁.shared
      (.ok reply) w₂.shared)
    (h₂ : Reaches d anything w₁ w₂) (h₃ : Reaches d anything w₂ w₃)
    (htold : Told (.form id) o w₃.shared.log) (id' : Uuid) :
    ¬ Names w₂.shared.db public_id id' := by
  intro hn'
  have hto := h.trans h₁
  obtain rfl := one_form hfit h (h₁.trans h₂) hn hn'
  have hinv := handleInv_of_reaches hfit hto
  have hpre : TenantPre p w₁.shared (.forms (.set_public_id o id key)) := by
    have hall := Logic.throughout_of_reaches (L := tenantLogic d.platform anything)
      (fun _ r _ _ _ _ => wp_told r) (told_safe .refl) (hto.trans h₂)
    rw [hx.log_eq] at hall
    exact hall.1
  -- The new handle is nobody's yet, and the old one is somebody's.
  have hne : key ≠ public_id := by
    rintro rfl
    have hused := hinv.settled.taken key id ((handleInv_of_reaches hfit h).named key id hn |>.mono
      fun e he => h₁.log_eq ▸ List.mem_append_right _ he)
    exact (hinv.keys.held p key hpre).2 hused
  obtain ⟨-, c, db', hrun, hdb'⟩ := hx.of_ok
  have hdb₂ : w₂.shared.db = db' := congrArg Shared.db hdb'
  obtain ⟨f', hf', hkey, hid⟩ := hn'
  rw [hdb₂] at hf'
  simp only [store, Stmt.run, FormStmt.run] at hrun
  (repeat' split at hrun) <;> cases hrun
  obtain ⟨f, hf, ⟨hsel, rfl⟩ | ⟨hsel, rfl⟩⟩ := Table.of_mem_updateWhere hf'
  · exact hne hkey
  -- A row the statement passed over is of another organization, which that form is not of.
  have hother : f'.organization_id ≠ o := by
    intro heq
    simp [heq, hid] at hsel
  have hplaces : Places w₁.shared.db (.form id) f'.organization_id :=
    .form hf (List.mem_singleton.mpr (congrArg Thing.form hid.symm))
  have hlog := (h₂.trans h₃).log_eq
  have hinv₃ := tenantInv_of_reaches hdb ((hto.trans h₂).trans h₃)
  have hown := ((tenantInv_of_reaches hdb hto).placed _ _ hplaces).mono
    fun e he => hlog ▸ List.mem_append_right _ he
  exact hother (hinv₃.settled.unique _ _ _ hown (hinv₃.told _ _ htold))

/-- **A rotated handle is dead.** When the handle of a form has been rotated, nobody who arrives
later with the one it had before ends well, neither with a submission nor with an upload. -/
theorem rotated_handle (hfit : HandlesFit db) (hdb : Separated db)
    (h : Reaches d anything (World.start db) w) (hn : Names w.shared.db public_id id) {p p' : ℕ}
    (hp : w.procs p = none) (h₁ : Reaches d anything w w₁) {o actor_id : Uuid} {form : FormRecord}
    (hrotated : w₁.Returned p (.rotate_public_id o id actor_id) form)
    (h₂ : Reaches d anything w₁ w₂) (hp' : w₁.procs p' = none) {r : Request}
    (hr : r.handle = some public_id) (a : r.Res) : ¬ w₂.Returned p' r a := by
  obtain ⟨⟨r₁, before₁, form₁, hfind⟩, r₂, before₂, key, reply, hset⟩ :=
    handled_of_returned (h.trans h₁) hrotated
  obtain ⟨w₃, w₄, hto, hbefore, hmid, hx, hfrom⟩ :=
    h₁.visits_effect (mem_since_of_new h h₁ hp hset)
  have hgone := gone_of_set hfit hdb h hn hto hx hmid hfrom (told_of_find (h.trans h₁) hfind)
  have hretired := retired_of_reaches hfit h hn (hto.trans hmid) hgone hfrom
  exact retired_handle hfit h hn h₁ hretired.gone h₂ hp' hr a

/-- **Nothing is misrouted**: what has been accepted under a handle is stored with the form that
has, or ever had, that handle. -/
theorem submission_of_handle (hfit : HandlesFit db)
    (hrows : ∀ row ∈ db.submissions.rows, row.id ∈ db.issued)
    (h : Reaches d anything (World.start db) w) (hn : Names w.shared.db public_id id)
    (h₁ : Reaches d anything w w₁) {p : ℕ} {payload : Map} {client : ClientInfo}
    {referer : Option String} {a : SubmissionAccepted}
    (hreturned : w₁.Returned p (.submit public_id payload client referer) a)
    {row : SubmissionRecord} (hrow : row ∈ w₁.shared.db.submissions.rows) (hid : row.id = a.id) :
    row.form_id = id := by
  have hrun := h.trans h₁
  obtain ⟨form, before, n, now, before', row', event, before'', writes, hfind, -, hinsert, -, -,
    hform, -, hid', hform', -⟩ := (submitted_of_returned hrun hreturned).exists_insert
  obtain ⟨w₂, hto, hbefore, hfrom⟩ := hrun.visits_of_mem (mem_since_of_new .refl hrun rfl hfind)
  have hnamed : Names w₂.shared.db public_id form.id := hbefore ▸ names_of_found hrun hfind
  have hof : handleOf db w₁.shared.log public_id form.id :=
    ((handleInv_of_reaches hfit hto).named _ _ hnamed).mono
      fun e he => hfrom.log_eq ▸ List.mem_append_right _ he
  have hof' : handleOf db w₁.shared.log public_id id :=
    ((handleInv_of_reaches hfit h).named _ _ hn).mono
      fun e he => h₁.log_eq ▸ List.mem_append_right _ he
  calc row.form_id
      = row'.form_id := (submissionsTraced_of_reaches hrows hrun).traced row hrow _ hinsert
          (row', event) rfl (hid'.trans hid.symm)
    _ = form.id := hform'.trans hform
    _ = id := (handleInv_of_reaches hfit hrun).settled.unique _ _ _ hof hof'

end Run

/-! ### A handle that is rotated

Somebody who arrives with the old link after the rotation finds nothing. -/

theorem handlesFit_twoTenants : HandlesFit .twoTenants where
  unique := by
    rintro public_id id id' ⟨f, hf, hkey, rfl⟩ ⟨f', hf', hkey', rfl⟩
    have hrows : ∀ f ∈ Database.twoTenants.forms.rows, ∀ f' ∈ Database.twoTenants.forms.rows,
        f.public_id = f'.public_id → f.id = f'.id := by decide
    exact hrows f hf f' hf' (hkey.trans hkey'.symm)
  issued := by decide

/-- The owner of organization 1 rotates the handle of its form. -/
def rotatesContact : List Step :=
  [.spawn 0 (.rotate_public_id 1 2 8), .step 0 {}, .step 0 {}, .step 0 { text := "renamed" },
    .step 0 {}, .step 0 {}, .step 0 {}]

/-- Somebody still has the old link. -/
def usesContact : List Step :=
  [.spawn 1 (.submit "contact" [("name", .string "Ben")] ⟨none, none⟩ none), .step 1 {}]

theorem rotated_handle_contact :
    let w := Deployment.sample.play anything rotatesContact .twoTenants
    (∃ form, w.Returned 0 (.rotate_public_id 1 2 8) form ∧ form.public_id = "renamed") ∧
      ¬ ∃ a, (play anything (store .sample) (Request.code .sample) usesContact w).Returned 1
        (.submit "contact" [("name", .string "Ben")] ⟨none, none⟩ none) a := by
  intro w
  have hrotated : ∃ form, w.Returned 0 (.rotate_public_id 1 2 8) form ∧
      form.public_id = "renamed" := ⟨_, rfl, rfl⟩
  refine ⟨hrotated, ?_⟩
  obtain ⟨form, hreturned, -⟩ := hrotated
  have hnames : Names (World.start .twoTenants).shared.db "contact" 2 :=
    ⟨.sample, by decide, rfl, rfl⟩
  rintro ⟨a, ha⟩
  exact rotated_handle handlesFit_twoTenants separated_twoTenants .refl hnames rfl
    (Deployment.sample.reaches_play anything rotatesContact _) hreturned
    (Regime.reaches_play anything usesContact w) rfl rfl a ha

/-- The answer to the survey is the survey's. -/
theorem submission_of_handle_survey :
    ∃ row ∈ (Deployment.sample.play anything answersSurvey .twoTenants).shared.db.submissions.rows,
      row.form_id = 4 := by
  have hreturned : ∃ a, (Deployment.sample.play anything answersSurvey .twoTenants).Returned 0
      (.submit "survey" [("name", .string "Ben")] ⟨none, none⟩ none) a ∧
      ∃ row ∈ (Deployment.sample.play anything answersSurvey
        .twoTenants).shared.db.submissions.rows,
        row.id = a.id := ⟨_, rfl, by decide +kernel⟩
  obtain ⟨a, hreturned, row, hrow, hid⟩ := hreturned
  have hnames : Names (World.start .twoTenants).shared.db "survey" 4 :=
    ⟨.survey, by decide, rfl, rfl⟩
  exact ⟨row, hrow, submission_of_handle handlesFit_twoTenants (by decide) .refl hnames
    (Deployment.sample.reaches_play anything answersSurvey _) hreturned hrow hid⟩

end SubmitSnap
