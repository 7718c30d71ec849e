import SubmitSnap.Footprints
import SubmitSnap.Form.Submittable
import SubmitSnap.Webhook.Deliveries

/-!
# Validation and the constraints of the tables

A request is validated before anything is written, and every table has `CHECK` constraints of its
own that should never have to speak. The same rule is written down twice, and not always in the same
way: names are counted before they are trimmed, the scheme of an address is compared without regard
to case, and nothing asks whether a file is empty. Where the two differ, a caller who has kept to
every rule is told that something went wrong inside.

## The argument

What a statement writes is fixed by its arguments, and these come from the request. So
`Request.storable` is a condition on the request, and the walk through the handlers carries an
equivalence and no implication: at each statement that writes such a row, the row meets the checks
if and only if the request is storable. Necessity costs nothing extra that way. The size of an
upload is the one value that is in no argument, since it is counted while the body arrives: there
the walk carries that something has been written so far exactly if some chunk was not empty.

The database's half is the answer: an update that passes its own checks may still meet an old row,
and the old rows are sound by an invariant of the run.

## Main definitions

* `Stmt.meetsChecks` — the row that is written satisfies the constraints of its table.
* `Request.validated` — the derived validation of the requests that write such rows.
* `Request.storable` — what it takes besides.

## Main results

* `meetsChecks_iff` — the rows of a validated request satisfy the constraints if and only if the
  request is storable.
* `not_meetsChecks` — an organization whose name is a blank.
-/

namespace SubmitSnap

open Interleave
open Interleave.Script (issues_query issues_ret issues_throw)

/-! ### The rules -/

/-- `length(min, max)`, and `char_length(_) BETWEEN min AND max`. -/
def length_between (min max : ℕ) (s : String) : Prop := min ≤ s.length ∧ s.length ≤ max

/-- `url ~ '^https?://'`. -/
def url_check (url : String) : Prop :=
  (starts_with url "http://" || starts_with url "https://") = true

/-- Statements that write a row of `organizations`, `forms`, `webhook_endpoints` or
`file_uploads` for a request that is validated first. -/
def Stmt.writesChecked : Stmt → Prop
  | .organizations (.insert_organization _ _) | .organizations (.rename _ _)
  | .forms (.create _ _ _ _ _) | .webhooks (.create_endpoint _ _ _ _ _)
  | .webhooks (.update_endpoint _ _ _) | .webhooks (.set_endpoint_secret _ _ _)
  | .uploads (.insert _) => True
  | _ => False

/-- The values that are written satisfy the constraints on them. -/
def Stmt.meetsChecks : Stmt → Prop
  | .organizations (.insert_organization name _) | .organizations (.rename _ name) =>
    length_between 1 120 name
  | .forms (.create _ name _ _ notify_emails) =>
    length_between 1 120 name ∧ notify_emails.length ≤ 20
  | .webhooks (.create_endpoint _ _ url secret _) => url_check url ∧ 16 ≤ secret.length
  | .webhooks (.update_endpoint _ _ changes) => ∀ url ∈ changes.url, url_check url
  | .webhooks (.set_endpoint_secret _ _ secret) => 16 ≤ secret.length
  | .uploads (.insert upload) => 0 < upload.size_bytes
  | _ => True

/-- The requests that write such rows, with their derived validation; those for endpoints, for
their secrets and for uploads derive none. -/
def Request.validated : Request → Prop
  | create_organization name _ | rename_organization _ name _ => length_between 1 120 name
  | create_form _ request _ =>
    length_between 1 120 request.name ∧ request.notify_emails.length ≤ 20
  | create_endpoint _ _ _ | update_endpoint _ _ _ _ | rotate_secret _ _ _ | upload _ _ _ _ _ => True
  | _ => False

/-- There is something in the name. -/
def not_blank (name : String) : Prop := ∃ c ∈ name.toList, is_whitespace c = false

/-- The scheme is written in lower case. -/
def lower_case_scheme (url : String) : Prop :=
  ∀ c ∈ ((split_once [':', '/', '/'] (trim url).toList).map (·.1)).getD [], c.toLower = c

/-- What has to hold of a request so that its rows can be stored. -/
def Request.storable : Request → Prop
  | create_organization name _ | rename_organization _ name _ => not_blank name
  | create_form _ request _ => not_blank request.name
  | create_endpoint _ request _ => lower_case_scheme request.url
  | update_endpoint _ _ request _ => ∀ url ∈ request.url, lower_case_scheme url
  | upload _ _ _ _ body => ∃ bytes, .ok bytes ∈ body ∧ bytes ≠ []
  | _ => True

/-! ### Texts -/

theorem trim_length_le (s : String) : (trim s).length ≤ s.length := by
  rw [← String.length_toList, ← String.length_toList, trim, String.toList_ofList,
    List.length_reverse]
  refine (List.dropWhile_sublist _).length_le.trans ?_
  rw [List.length_reverse]
  exact (List.dropWhile_sublist _).length_le

/-- Only a blank name is lost by trimming. -/
theorem length_between_trim {max : ℕ} {name : String} (h : length_between 1 max name) :
    length_between 1 max (trim name) ↔ not_blank name := by
  have hshort : (trim name).length ≤ max := (trim_length_le name).trans h.2
  have hempty : (trim name).isEmpty = true ↔ (trim name).length = 0 := by simp
  rw [length_between, and_iff_left hshort, Nat.one_le_iff_ne_zero, ne_eq, ← hempty,
    trim_isEmpty_iff, not_blank]
  push Not
  simp

theorem encode_length (token : SecretToken) : token.encode.length = 43 := by
  rw [SecretToken.encode, ← String.length_toList, String.toList_ofList, List.length_map,
    List.length_range]

/-- A generated secret is long enough for its constraint. -/
theorem le_encode_length (token : SecretToken) : 16 ≤ token.encode.length := by
  rw [encode_length]
  decide

/-- Of the schemes that pass in any case, the constraint takes those in lower case. -/
theorem isPrefixOf_scheme {scheme rest : List Char}
    (h : scheme.map Char.toLower = "http".toList ∨ scheme.map Char.toLower = "https".toList) :
    ("http://".toList.isPrefixOf (scheme ++ [':', '/', '/'] ++ rest) ||
      "https://".toList.isPrefixOf (scheme ++ [':', '/', '/'] ++ rest)) = true ↔
      ∀ c ∈ scheme, c.toLower = c := by
  have hlower : ∀ {c c' : Char}, c.toLower = c' → (c.toLower = c ↔ c' = c) := by
    rintro c _ rfl
    exact Iff.rfl
  simp only [String.reduceToList, List.map_eq_cons_iff, List.map_eq_nil_iff] at h
  rcases h with ⟨a, _, rfl, ha, b, _, rfl, hb, c, _, rfl, hc, d, _, rfl, hd, rfl⟩ |
    ⟨a, _, rfl, ha, b, _, rfl, hb, c, _, rfl, hc, d, _, rfl, hd, e, _, rfl, he, rfl⟩
  · simp [List.isPrefixOf, hlower ha, hlower hb, hlower hc, hlower hd]
  · simp only [String.reduceToList, List.isPrefixOf, List.cons_append, List.nil_append,
      List.forall_mem_cons, hlower ha, hlower hb, hlower hc, hlower hd, hlower he]
    simp

/-- **What the address check leaves open** is the case of the scheme. -/
theorem url_check_trim {url : String} {allow_private : Bool}
    (h : check_url url allow_private = .ok ()) : url_check (trim url) ↔ lower_case_scheme url := by
  unfold check_url at h
  cases hsplit : split_once [':', '/', '/'] (trim url).toList with
  | none =>
    rw [hsplit] at h
    cases h
  | some found =>
    obtain ⟨scheme, rest⟩ := found
    rw [hsplit] at h
    dsimp only at h
    split at h
    · cases h
    · next hscheme =>
      rw [url_check, starts_with, starts_with, lower_case_scheme, hsplit, eq_of_split_once hsplit]
      refine isPrefixOf_scheme ?_
      simpa [eq_ignore_ascii_case, or_iff_not_imp_left] using hscheme

/-! ### What each request writes -/

/-- A statement meets the constraints if and only if the request is storable. -/
def Agrees (r : Request) (q : Stmt) : Prop := q.writesChecked → (q.meetsChecks ↔ r.storable)

section Scripts

variable {d : Deployment} {r : Request}

theorem create_organization_agrees {name : String} (hvalid : length_between 1 120 name)
    (actor_id : Uuid) : (OrganizationService.create name actor_id).Issues
      (Agrees (.create_organization name actor_id)) := by
  refine transaction_issues False.elim (fun now => ?_) False.elim
  refine (issues_query fun _ => length_between_trim hvalid).bind fun organization => ?_
  exact (issues_query False.elim).bind fun owner =>
    (issues_query False.elim).bind fun _ => issues_ret

theorem rename_agrees {name : String} (hvalid : length_between 1 120 name)
    (organization_id actor_id : Uuid) :
    (OrganizationService.rename organization_id name actor_id).Issues
      (Agrees (.rename_organization organization_id name actor_id)) :=
  (OrganizationService.access_issues False.elim).bind fun _ =>
    (OrganizationService.require_manager_issues _).bind fun _ =>
    (issues_query fun _ => length_between_trim hvalid).bind fun _ =>
    OrganizationService.access_issues False.elim

theorem create_form_agrees {request : CreateFormRequest}
    (hvalid : length_between 1 120 request.name ∧ request.notify_emails.length ≤ 20)
    (organization_id actor_id : Uuid) :
    (FormService.create d organization_id request actor_id).Issues
      (Agrees (.create_form organization_id request actor_id)) := by
  refine (FormService.manager_access_issues False.elim).bind fun _ => ?_
  generalize check_schema d request.schema false = checked
  refine (FormService.require_issues checked).bind fun _ => ?_
  refine (issues_query False.elim).bind fun public_id => issues_query fun _ => ?_
  exact (and_iff_left hvalid.2).trans (length_between_trim hvalid.1)

/-- A check under `?` has been passed by what follows. -/
theorem require_does {α : Type} {P : Stmt → Prop} (y : Except WebhookError α) :
    (WebhookService.require y).Does P (fun _ _ => True) fun z => ∀ a, z = .ok a → y = .ok a := by
  cases y with
  | ok a => exact fun _ heq => heq
  | error e => nofun

theorem create_endpoint_agrees (organization_id : Uuid) (request : CreateWebhookEndpointRequest)
    (actor_id : Uuid) : (WebhookService.create d organization_id request actor_id).Issues
      (Agrees (.create_endpoint organization_id request actor_id)) := by
  refine (WebhookService.manager_access_issues False.elim).bind fun _ => ?_
  refine Script.Does.issues (Φ := fun _ => True) ?_
  generalize hchecked : check_url request.url d.config.webhook_allow_private_targets = checked
  refine (require_does checked).bind (fun _ hpassed => ?_) fun _ _ => trivial
  rw [hpassed () rfl] at hchecked
  refine Script.Issues.does ?_
  refine (WebhookService.if_some_issues fun _ =>
    WebhookService.ensure_form_issues False.elim).bind fun _ => ?_
  refine (issues_query False.elim).bind fun token => ?_
  refine (issues_query fun _ => ?_).bind fun _ => issues_ret
  exact (and_iff_left (le_encode_length ⟨token⟩)).trans (url_check_trim hchecked)

theorem rotate_secret_agrees (organization_id id actor_id : Uuid) :
    (WebhookService.rotate_secret organization_id id actor_id).Issues
      (Agrees (.rotate_secret organization_id id actor_id)) := by
  refine (WebhookService.manager_access_issues False.elim).bind fun _ => ?_
  refine (issues_query False.elim).bind fun found => ?_
  cases found with
  | none => exact issues_throw
  | some _ =>
    refine (issues_query False.elim).bind fun token => ?_
    refine (issues_query fun _ => iff_of_true (le_encode_length ⟨token⟩) trivial).bind
      fun found => ?_
    split
    · exact issues_throw
    · exact issues_ret

theorem update_endpoint_agrees (organization_id id : Uuid) (request : UpdateWebhookEndpointRequest)
    (actor_id : Uuid) : (WebhookService.update d organization_id id request actor_id).Issues
      (Agrees (.update_endpoint organization_id id request actor_id)) := by
  refine (WebhookService.manager_access_issues False.elim).bind fun _ => ?_
  refine (issues_query False.elim).bind fun found => ?_
  cases found with
  | none => exact issues_throw
  | some _ =>
    -- The address is only looked at if there is one.
    have hchecked : (WebhookService.if_some request.url fun url => WebhookService.require
        (check_url url d.config.webhook_allow_private_targets)).Does
          (Agrees (.update_endpoint organization_id id request actor_id)) (fun _ _ => True)
          fun z => ∀ a, z = .ok a → ∀ url ∈ request.url,
            check_url url d.config.webhook_allow_private_targets = .ok () := by
      cases request.url with
      | none => exact fun _ _ _ hurl => nomatch hurl
      | some url =>
        refine (require_does _).mono fun z hz a ha url' hurl => ?_
        cases hurl
        exact hz () ha
    refine Script.Does.issues (Φ := fun _ => True) ?_
    refine hchecked.bind (fun _ hpassed => Script.Issues.does ?_) fun _ _ => trivial
    refine (WebhookService.if_some_issues fun _ =>
      WebhookService.ensure_form_issues False.elim).bind fun _ => ?_
    refine (issues_query fun _ => ?_).bind fun row => by cases row <;> trivial
    constructor
    · intro hmeets url hurl
      exact (url_check_trim (hpassed () rfl url hurl)).mp
        (hmeets (trim url) (Option.mem_map_of_mem _ hurl))
    · intro hstorable url hurl
      obtain ⟨url, hmem, rfl⟩ := Option.mem_map.mp hurl
      exact (url_check_trim (hpassed () rfl url hmem)).mpr (hstorable url hmem)

/-- A chunk adds to what has been written unless there is nothing in it. -/
theorem stream_chunk_does {P : Stmt → Prop} {key : String}
    (hwrite : ∀ bytes, P (.write_part key bytes)) (declared : Option String) (limit : ℕ)
    (st : StreamState) (chunk : Chunk) :
    (stream_chunk key declared limit st chunk).Does P (fun _ _ => True) fun z => ∀ st₁,
      z = .ok st₁ →
        (0 < st₁.written ↔ 0 < st.written ∨ ∃ bytes, chunk = .ok bytes ∧ bytes ≠ []) := by
  cases chunk with
  | error e =>
    rw [stream_chunk]
    split <;> (intro st₁ heq; cases heq)
  | ok bytes =>
    have hwritten : (UploadWriter.write key limit st.written bytes).Does P (fun _ _ => True)
        fun z => ∀ total, z = .ok total → total = st.written + bytes.length := by
      unfold UploadWriter.write
      dsimp only
      split
      · intro total heq
        cases heq
      · refine (issues_query (hwrite bytes)).does.bind (fun _ _ total heq => ?_)
          fun _ _ _ heq => by cases heq
        cases heq
        rfl
    refine hwritten.bind (fun total htotal => ?_) fun _ _ _ heq => by cases heq
    have hiff : 0 < total ↔ 0 < st.written ∨ ∃ bytes', Except.ok (ε := Failure) bytes = .ok bytes' ∧
        bytes' ≠ [] := by
      rw [htotal total rfl, Nat.add_pos_iff_pos_or_pos, List.length_pos_iff]
      simp
    split
    · refine (FormService.require_issues _).does.bind (fun _ _ st₁ heq => ?_)
        fun _ _ _ heq => by cases heq
      cases heq
      exact hiff
    · rintro st₁ heq
      cases heq
      exact hiff

/-- The size of an upload is zero when nothing has been in its body. -/
theorem stream_upload_does {P : Stmt → Prop} {key : String}
    (hwrite : ∀ bytes, P (.write_part key bytes)) (declared : Option String) (limit : ℕ)
    (body : List Chunk) (st : StreamState) :
    (stream_upload key declared limit body st).Does P (fun _ _ => True) fun z => ∀ size,
      z = .ok size → (0 < size ↔ 0 < st.written ∨ ∃ bytes, .ok bytes ∈ body ∧ bytes ≠ []) := by
  induction body generalizing st with
  | nil =>
    have hcheck : (Script.when (!st.inspected)
        (FormService.require (check_bytes st.head declared))).Issues P :=
      Script.Issues.when fun _ => FormService.require_issues _
    refine hcheck.does.bind (fun _ _ size heq => ?_) fun _ _ => nofun
    cases heq
    simp
  | cons chunk body ih =>
    refine (stream_chunk_does hwrite declared limit st chunk).bind
      (fun st₁ hst₁ => (ih st₁).mono fun z hz size heq => ?_) fun _ _ => nofun
    rw [hz size heq, hst₁ st₁ rfl, or_assoc]
    refine or_congr_right ?_
    constructor
    · rintro (⟨bytes, rfl, hbytes⟩ | ⟨bytes, hmem, hbytes⟩)
      · exact ⟨bytes, List.mem_cons_self, hbytes⟩
      · exact ⟨bytes, List.mem_cons_of_mem _ hmem, hbytes⟩
    · rintro ⟨bytes, hmem, hbytes⟩
      rcases List.mem_cons.mp hmem with heq | hmem
      · exact .inl ⟨bytes, heq.symm, hbytes⟩
      · exact .inr ⟨bytes, hmem, hbytes⟩

theorem upload_agrees (public_id field_key : String) (filename declared_type : Option String)
    (body : List Chunk) :
    (FormService.upload d public_id field_key filename declared_type body).Issues
      (Agrees (.upload public_id field_key filename declared_type body)) := by
  unfold FormService.upload
  split
  · exact issues_throw
  refine (FormService.load_published_issues False.elim).bind fun form => ?_
  refine (issues_query False.elim).bind fun allowed => ?_
  split
  · exact issues_throw
  refine (FormService.require_issues _).bind fun (field, declared) => ?_
  refine (issues_query False.elim).bind fun key => (issues_query False.elim).bind fun _ => ?_
  refine Script.Does.issues (Φ := fun _ => True) ?_
  refine Script.Does.bind (Ψ := fun z => ∀ y, z = .ok y → ∀ size, y = .ok size →
    (0 < size ↔ ∃ bytes, .ok bytes ∈ body ∧ bytes ≠ [])) ?_ (fun y hy => ?_) fun _ _ => trivial
  · refine Script.does_result.mpr ((stream_upload_does (fun _ => False.elim) _ _ body _).mono ?_)
    rintro z hz y heq size rfl
    cases heq
    exact (hz size rfl).trans (or_iff_right (Nat.lt_irrefl 0))
  refine Script.Issues.does ?_
  cases y with
  | error e => exact (Script.issues_attempt False.elim).bind fun _ => issues_throw
  | ok size =>
    refine (FormService.finish_issues False.elim False.elim False.elim).bind fun _ => ?_
    refine (Script.issues_attempt fun _ => hy _ rfl size rfl).bind fun row => ?_
    cases row with
    | ok row => exact issues_ret
    | error e => exact (Script.issues_attempt False.elim).bind fun _ => issues_throw

/-- **What a validated request writes** meets the constraints if and only if it is storable. -/
theorem code_agrees (r : Request) :
    (r.code d).Issues fun q => r.validated → Agrees r q := by
  by_cases hvalid : r.validated
  · suffices h : (r.code d).Issues (Agrees r) from h.mono fun _ hq _ => hq
    cases r with
    | create_organization name actor_id => exact create_organization_agrees hvalid actor_id
    | rename_organization organization_id name actor_id =>
      exact rename_agrees hvalid organization_id actor_id
    | create_form organization_id request actor_id =>
      exact create_form_agrees hvalid organization_id actor_id
    | create_endpoint organization_id request actor_id =>
      exact create_endpoint_agrees organization_id request actor_id
    | update_endpoint organization_id id request actor_id =>
      exact update_endpoint_agrees organization_id id request actor_id
    | rotate_secret organization_id id actor_id =>
      exact rotate_secret_agrees organization_id id actor_id
    | upload public_id field_key filename declared_type body =>
      exact upload_agrees public_id field_key filename declared_type body
    | _ => exact hvalid.elim
  · exact Script.issues_of_forall (fun _ hr => absurd hr hvalid) _

end Scripts

/-! ### What the database makes of it -/

/-- The endpoints that are there have passed the constraint on their addresses. -/
def EndpointsChecked (db : Database) : Prop := ∀ e ∈ db.webhook_endpoints.rows, url_check e.url

/-- A constraint refuses what the statement writes. -/
def RefusedByCheck (P : Platform) (e : Event) : Prop :=
  ∃ c db' constraint, e.stmt.run P e.pid c e.before = some (db', .error (.check constraint))

section Statements

variable {P : Platform} {p : ℕ} {c : Choice} {db db' : Database} {q : Stmt}

theorem EndpointsChecked.run {x : Except Failure q.Reply} (hdb : EndpointsChecked db)
    (h : q.run P p c db = some (db', x)) : EndpointsChecked db' := by
  intro e he
  cases Stmt.endpoint_step h he with
  | kept he => exact hdb e he
  | created heq _ hurl => exact heq ▸ hurl
  | changed _ hurl => exact hurl
  | @rekeyed _ _ e hfound => exact hdb e (List.mem_of_find?_eq_some hfound)

theorem formChecks_of_meets {name : String} {notify_emails : List String}
    (hname : length_between 1 120 name) (hemails : notify_emails.length ≤ 20) :
    formChecks name notify_emails = none := by
  rw [formChecks, if_neg (not_or.mpr ⟨Nat.ne_of_gt hname.1, Nat.not_lt.mpr hname.2⟩),
    if_neg (Nat.not_lt.mpr hemails)]

/-- **Nothing else is refused**: the constraints are met, and they are all there is. -/
theorem not_refused_of_meets (hdb : EndpointsChecked db) (hwrites : q.writesChecked)
    (hmeets : q.meetsChecks) (constraint : String) :
    q.run P p c db ≠ some (db', .error (.check constraint)) := by
  have hname : ∀ {name : String}, length_between 1 120 name →
      ¬ (name.length = 0 ∨ 120 < name.length) :=
    fun hname => not_or.mpr ⟨Nat.ne_of_gt hname.1, Nat.not_lt.mpr hname.2⟩
  intro h
  cases q with
  | organizations q =>
    cases q with
    | insert_organization name now =>
      simp only [Stmt.run, OrganizationStmt.run, if_neg (hname hmeets)] at h
      split at h <;> cases h
    | rename id name =>
      simp only [Stmt.run, OrganizationStmt.run,
        if_neg fun hbad => hname hmeets (And.right hbad)] at h
      split at h <;> cases h
    | _ => exact hwrites.elim
  | forms q =>
    cases q with
    | create organization_id name public_id schema notify_emails =>
      simp only [Stmt.run, FormStmt.run, formChecks_of_meets hmeets.1 hmeets.2] at h
      (repeat' split at h) <;> cases h
    | _ => exact hwrites.elim
  | webhooks q =>
    cases q with
    | create_endpoint organization_id form_id url secret description =>
      have hurl : (starts_with url "http://" || starts_with url "https://") = true := hmeets.1
      simp only [Stmt.run, WebhookStmt.run, if_neg (Nat.not_lt.mpr hmeets.2), hurl] at h
      (repeat' split at h) <;> cases h
      contradiction
    | update_endpoint organization_id id changes =>
      simp only [Stmt.run, WebhookStmt.run] at h
      split at h
      · split at h
        · cases h
        · next e hfound =>
          have hurl : (starts_with (changes.url.getD e.url) "http://" ||
              starts_with (changes.url.getD e.url) "https://") = true := by
            cases hchange : changes.url with
            | none => exact hdb e (List.mem_of_find?_eq_some hfound)
            | some url => exact hmeets url hchange
          rw [hurl] at h
          split at h
          · contradiction
          · split at h <;> cases h
      · cases h
    | set_endpoint_secret organization_id id secret =>
      simp only [Stmt.run, WebhookStmt.run, if_neg (Nat.not_lt.mpr hmeets)] at h
      (repeat' split at h) <;> cases h
    | _ => exact hwrites.elim
  | uploads q =>
    cases q with
    | insert upload =>
      simp only [Stmt.run, UploadStmt.run, if_neg (Nat.ne_of_gt hmeets)] at h
      (repeat' split at h) <;> cases h
    | _ => exact hwrites.elim
  | _ => exact hwrites.elim

end Statements

/-! ### Every run -/

/-- **Which validated requests write rows that the constraints accept**: those that are storable,
whatever other requests do. -/
theorem meetsChecks_iff {d : Deployment} {db : Database} {w : World} (hdb : EndpointsChecked db)
    (h : Reaches d (Regime.free fun _ => True) (World.start db) w) {e : Event}
    (he : e ∈ w.shared.log) (hvalid : e.req.validated) (hwrites : e.stmt.writesChecked) :
    e.stmt.meetsChecks ∧ ¬ RefusedByCheck d.platform e ↔ e.req.storable := by
  have hagrees : e.stmt.meetsChecks ↔ e.req.storable :=
    h.of_issues (fun r _ => code_agrees r) e he hvalid hwrites
  have hchecked : EndpointsChecked w.shared.db ∧ ∀ e ∈ w.shared.log, EndpointsChecked e.before := by
    refine Regime.inv_of_reaches (I := fun s => EndpointsChecked s.db ∧
      ∀ e ∈ s.log, EndpointsChecked e.before) (fun hs hx => ?_) (fun _ hs => hs) (fun hs => hs)
      ⟨hdb, fun e he => absurd he List.not_mem_nil⟩ h
    refine ⟨?_, fun e he => ?_⟩
    · cases hx with
      | run _ hrun => exact hs.1.run hrun
      | fail _ => exact hs.1
    · rw [hx.log_eq] at he
      rcases List.mem_cons.mp he with rfl | he
      · exact hs.1
      · exact hs.2 e he
  rw [← hagrees]
  refine and_iff_left_of_imp fun hmeets => ?_
  rintro ⟨c, db', constraint, hrun⟩
  exact not_refused_of_meets (hchecked.2 e he) hwrites hmeets constraint hrun

/-! ### A name that is a blank -/

instance : DecidablePred Stmt.writesChecked := fun q => by
  induction q using Stmt.casesOn with
  | organizations q =>
    induction q using OrganizationStmt.casesOn <;> (delta Stmt.writesChecked; infer_instance)
  | forms q => induction q using FormStmt.casesOn <;> (delta Stmt.writesChecked; infer_instance)
  | webhooks q =>
    induction q using WebhookStmt.casesOn <;> (delta Stmt.writesChecked; infer_instance)
  | uploads q => induction q using UploadStmt.casesOn <;> (delta Stmt.writesChecked; infer_instance)
  | _ => delta Stmt.writesChecked; infer_instance

instance (min max : ℕ) (s : String) : Decidable (length_between min max s) :=
  inferInstanceAs (Decidable (_ ∧ _))

instance : DecidablePred url_check := fun _ => inferInstanceAs (Decidable (_ = true))

instance : DecidablePred Stmt.meetsChecks := fun q => by
  induction q using Stmt.casesOn with
  | organizations q =>
    induction q using OrganizationStmt.casesOn <;> (delta Stmt.meetsChecks; infer_instance)
  | forms q => induction q using FormStmt.casesOn <;> (delta Stmt.meetsChecks; infer_instance)
  | webhooks q => induction q using WebhookStmt.casesOn <;> (delta Stmt.meetsChecks; infer_instance)
  | uploads q => induction q using UploadStmt.casesOn <;> (delta Stmt.meetsChecks; infer_instance)
  | _ => delta Stmt.meetsChecks; infer_instance

instance : DecidablePred Request.validated := fun r => by
  induction r using Request.casesOn <;> (delta Request.validated; infer_instance)

/-- Somebody founds an organization. -/
def foundOrganization (name : String) : List Step :=
  [.spawn 0 (.create_organization name 8), .step 0 {}, .step 0 { id := 20 }]

/-- A name that is not blank is stored. -/
theorem meetsChecks_named :
    let w := Deployment.sample.play (Regime.free fun _ => True) (foundOrganization " Acme ") .sample
    ∃ e ∈ w.shared.log, e.stmt.meetsChecks ∧ ¬ RefusedByCheck .sample e := by
  have hreaches := Deployment.sample.reaches_play (Regime.free fun _ => True)
    (foundOrganization " Acme ") .sample
  generalize hw : Deployment.sample.play (Regime.free fun _ => True) (foundOrganization " Acme ")
    .sample = w at hreaches
  have hfound : ∃ e ∈ w.shared.log, e.stmt.writesChecked ∧
      e.req = .create_organization " Acme " 8 := by
    subst hw
    exact ⟨_, List.mem_cons_self, trivial, rfl⟩
  obtain ⟨e, he, hwrites, hreq⟩ := hfound
  have hdb : EndpointsChecked .sample := fun _ he => absurd he List.not_mem_nil
  refine ⟨e, he, (meetsChecks_iff hdb hreaches he ?_ hwrites).mpr ?_⟩
  · rw [hreq]
    decide
  · rw [hreq]
    exact ⟨'A', by decide, by decide⟩

/-- **A blank name** passes its validation and nothing else. -/
theorem not_meetsChecks :
    ¬ ∀ w, Reaches .sample (Regime.free fun _ => True) (World.start .sample) w →
    ∀ e ∈ w.shared.log, e.req.validated → e.stmt.writesChecked →
      e.stmt.meetsChecks ∧ ¬ RefusedByCheck .sample e := by
  intro hall
  have hreaches := Deployment.sample.reaches_play (Regime.free fun _ => True)
    (foundOrganization " ") .sample
  have hfound : ∃ e ∈ (Deployment.sample.play (Regime.free fun _ => True) (foundOrganization " ")
      .sample).shared.log, e.req.validated ∧ e.stmt.writesChecked ∧ ¬ e.stmt.meetsChecks := by
    decide +kernel
  obtain ⟨e, he, hvalid, hwrites, hfails⟩ := hfound
  exact hfails (hall _ hreaches e he hvalid hwrites).1

end SubmitSnap
