import SubmitSnap.Form.Sound
import SubmitSnap.Form.SubmissionFiles

/-!
# Where submissions come from

Nothing in the instance makes up a submission or rewrites one. A row of `submissions` is what one
request has asked for that found a published form under the handle it was made with: the answers are
those the form's schema has made of its payload, the files are those its answers name, each
described as the ledger described it when that request locked it, and later only the status
changes. One request never leaves two.

## The argument

`insertLogic` says what is known when a submission is inserted: the process has inserted nothing
before, and what it inserts is made of answers it has been given, which are all in the log. So the
log of a run tells of every inserted row where it is from. That a stored row is an inserted one is a
second induction over the run (`inserted_of_reaches`): a row comes into the table by the commit of
the process that was answered it, and the statements that reach it afterwards set its status.

The files take more than the log of the request. That a file answer names a row of the ledger is
checked on the rows that `lock_for_claim` has answered, and those were rows of the form that nobody
had claimed in the very state the request has locked them in (`WasUnclaimed`).

## Main definitions

* `ComposedFrom` — a submission is made of a form and of what a client has sent.
* `SubmittedBy` — a stored row is the one a request has asked for.

## Main results

* `submitted_by_one` — every stored submission was submitted by exactly one request.
-/

namespace SubmitSnap

open Interleave
open Interleave.Script

/-- When the request locked it, the file was in the ledger, unclaimed, for that form and the field
it answers. -/
def WasUnclaimed (p : ℕ) (r : Request) (form_id : Uuid) (log : List Event)
    (file : String × FileMetadata) : Prop :=
  ∃ before object_keys recorded,
    ⟨p, r, before, .uploads (.lock_for_claim form_id object_keys), .ok recorded⟩ ∈ log ∧
    ∃ u ∈ before.file_uploads.rows, u ∈ recorded ∧ u.submission_id = none ∧
      u.form_id = form_id ∧ u.field_key = file.1 ∧ u.metadata = file.2

/-- `n` is made of a published form and of what a client has sent to it. -/
structure ComposedFrom (P : Platform) (p : ℕ) (r : Request) (n : NewSubmission) (log : List Event) :
    Prop where
  exists_form : ∃ public_id payload client referer before form answers,
    r = .submit public_id payload client referer ∧
    ⟨p, r, before, .forms (.find_by_public_id public_id), .ok (some form)⟩ ∈ log ∧
    form.status = .published ∧ validate_submission P form.schema payload = .ok answers ∧
    n = { FormService.new_submission form payload answers client referer with files := n.files } ∧
    (n.files.getD []).map (fun file => (file.1, file.2.key)) = file_answers form.schema answers ∧
    ∀ file ∈ n.files.getD [], WasUnclaimed p r form.id log file

/-- A submission is inserted once by a request, and is made of what was sent. The second part is a
fact about the log alone, so it stays true after the insert; the first does not, which is the
point: the next insert of the same process would find this one. -/
def InsertPre (P : Platform) (p : ℕ) (r : Request) (s : State) : Stmt → Prop
  | .submissions (.insert n _) => Own p (fun e => inserted e = none) s.log ∧
    ComposedFrom P p r n s.log
  | _ => True

/-- The logic of what is inserted. -/
def insertLogic (P : Platform) (G : Regime) : Logic G (store P) :=
  .ofPre fun p r q s => InsertPre P p r s q

section Scripts

variable {P : Platform} {d : Deployment} {G : Regime} {p : ℕ} {r : Request} {s : State}
  {n : NewSubmission} {log log' : List Event} {form_id : Uuid} {file : String × FileMetadata}
  {ε α : Type}

theorem WasUnclaimed.mono (h : WasUnclaimed p r form_id log file) (hlog : ∀ e ∈ log, e ∈ log') :
    WasUnclaimed p r form_id log' file := by
  obtain ⟨before, object_keys, recorded, he, hrow⟩ := h
  exact ⟨before, object_keys, recorded, hlog _ he, hrow⟩

/-- Code that inserts no submission. -/
theorem wp_of_storesNothing {x : Code ε α} (hx : x.Issues fun q => ∀ n now,
    q ≠ .submissions (.insert n now)) : (insertLogic P G).wp p r x (fun _ _ => True) s := by
  refine Logic.wp_of_does (fun q => ∀ n now, q ≠ .submissions (.insert n now)) (fun _ _ => True)
    (fun _ => True) (fun _ => True) (fun _ _ => trivial) (fun {q s} hq _ _ => ?_)
    (fun _ _ _ _ _ => ⟨trivial, trivial⟩) (fun _ _ => trivial) hx.does trivial
  change InsertPre P p r s q
  unfold InsertPre
  split
  · next n now => exact absurd rfl (hq n now)
  · trivial

/-- What is known before the transaction: the form and the answers. -/
structure Composing (P : Platform) (p : ℕ) (r : Request) (public_id : String) (payload : Map)
    (client : ClientInfo) (referer : Option String) (form : FormRecord) (answers : Map)
    (log : List Event) : Prop where
  request : r = .submit public_id payload client referer
  found : ∃ before, ⟨p, r, before, .forms (.find_by_public_id public_id), .ok (some form)⟩ ∈ log
  published : form.status = .published
  valid : validate_submission P form.schema payload = .ok answers
  first : Own p (fun e => inserted e = none) log

variable {public_id : String} {payload answers : Map} {client : ClientInfo}
  {referer : Option String} {form : FormRecord} {s' : State} {q : Stmt} {x : Except Failure q.Reply}

theorem Composing.others (h : Composing P p r public_id payload client referer form answers s.log)
    (ho : Others p s s') :
    Composing P p r public_id payload client referer form answers s'.log :=
  ⟨h.request, h.found.imp fun _ => ho.mem, h.published, h.valid, h.first.of_others ho⟩

theorem Composing.effect (h : Composing P p r public_id payload client referer form answers s.log)
    (hx : G.Effect (store P) p r q s x s') (hq : ∀ n now, q ≠ .submissions (.insert n now)) :
    Composing P p r public_id payload client referer form answers s'.log := by
  refine ⟨h.request, h.found.imp fun _ => hx.mem, h.published, h.valid, h.first.effect hx ?_⟩
  unfold inserted
  split
  · next heq =>
    cases heq
    exact absurd rfl (hq _ _)
  · rfl

/-- What is inserted is made of what is known. -/
theorem Composing.insertPre {files : Option (List (String × FileMetadata))} (now : Timestamp)
    (h : Composing P p r public_id payload client referer form answers s.log)
    (hanswers : (files.getD []).map (fun file => (file.1, file.2.key)) =
      file_answers form.schema answers)
    (hfiles : ∀ file ∈ files.getD [], WasUnclaimed p r form.id s.log file) :
    InsertPre P p r s (.submissions (.insert
      { FormService.new_submission form payload answers client referer with files := files }
      now)) := by
  obtain ⟨before, hfound⟩ := h.found
  exact ⟨h.first, ⟨public_id, payload, client, referer, before, form, answers, h.request, hfound,
    h.published, h.valid, rfl, hanswers, hfiles⟩⟩

/-- What comes after the insert inserts nothing. -/
theorem wp_after_insert {row : SubmissionRecord} {writes : List Write} :
    (insertLogic P G).wp p r (ask (.commit writes) >>= fun _ => .ret row.id : Code FormError Uuid)
      (fun _ _ => True) s :=
  wp_of_storesNothing ((issues_query fun _ _ => nofun).bind fun _ => issues_ret)

theorem wp_insert_submission_from
    (h : Composing P p r public_id payload client referer form answers s.log)
    (hnone : file_answers form.schema answers = []) :
    (insertLogic P G).wp p r (FormService.insert_submission
      (FormService.new_submission form payload answers client referer)) (fun _ _ => True) s := by
  refine wp_transaction_post (fun _ => trivial) (fun _ => trivial) trivial
    (fun s₁ now s₂ he₁ hx₂ _ => ?_) (fun _ _ _ _ _ _ _ => trivial) fun _ _ _ _ _ _ _ _ _ _ =>
      trivial
  have h₂ := (h.others he₁.others).effect hx₂ fun _ _ => nofun
  refine Logic.wp_query_bind fun s₃ he₃ => ⟨?_, fun _ _ _ _ => wp_after_insert,
    fun _ _ _ _ _ _ => trivial⟩
  exact (h₂.others he₃.others).insertPre now hnone.symm fun _ hfile => absurd hfile List.not_mem_nil

theorem wp_insert_claiming_files_from
    (h : Composing P p r public_id payload client referer form answers s.log) :
    (insertLogic P G).wp p r (FormService.insert_claiming_files
      (FormService.new_submission form payload answers client referer)
      (file_answers form.schema answers)) (fun _ _ => True) s := by
  refine wp_transaction_post (fun _ => trivial) (fun _ => trivial) trivial
    (fun s₁ now s₂ he₁ hx₂ _ => ?_) (fun _ _ _ _ _ _ _ => trivial) fun _ _ _ _ _ _ _ _ _ _ =>
      trivial
  have h₂ := (h.others he₁.others).effect hx₂ fun _ _ => nofun
  refine Logic.wp_query_bind fun s₃ he₃ => ⟨trivial, fun recorded s₄ hx₄ _ => ?_,
    fun _ _ _ _ _ _ => trivial⟩
  have h₄ := (h₂.others he₃.others).effect hx₄ fun _ _ => nofun
  cases hcheck : check_file_references recorded (file_answers form.schema answers) with
  | error e => exact fun _ _ => trivial
  | ok metadata =>
    obtain ⟨hanswers, hrecorded⟩ := check_file_references_ok hcheck
    have hfiles : ∀ file ∈ metadata, WasUnclaimed p r form.id s₄.log file := by
      intro file hfile
      obtain ⟨u, hu, hunclaimed, hfield, hmeta⟩ := hrecorded file hfile
      have hshown := hu
      obtain ⟨-, c, db, hrun, -⟩ := hx₄.of_ok
      have hlocked : recorded = s₃.db.recorded form.id _ :=
        Except.ok.inj (of_run_lock_for_claim (c := c) hrun).1
      rw [hlocked] at hu
      obtain ⟨hrow, hsel⟩ := List.mem_filter.mp ((List.mem_insertionSort _).mp hu)
      exact ⟨_, _, recorded, hx₄.mem_self, u, hrow, hshown, hunclaimed,
        beq_iff_eq.mp (Bool.and_eq_true_iff.mp hsel).1, hfield, hmeta⟩
    refine Logic.wp_query_bind fun s₅ he₅ => ⟨?_, fun answer s₆ hx₆ _ => ?_,
      fun _ _ _ _ _ _ => trivial⟩
    · exact (h₄.others he₅.others).insertPre now hanswers fun file hfile =>
        (hfiles file hfile).mono fun _ => he₅.others.mem
    obtain ⟨row, event⟩ := answer
    refine wp_of_storesNothing ((issues_query fun _ _ => nofun).bind fun claimed => ?_)
    split
    · exact issues_throw
    · exact (issues_query fun _ _ => nofun).bind fun _ => issues_ret

/-- **A submission is made of what was sent.** -/
theorem wp_submit_from (hfresh : ∀ e ∈ s.log, e.pid ≠ p)
    (hr : r = .submit public_id payload client referer) :
    (insertLogic d.platform G).wp p r (FormService.submit d public_id payload client referer)
      (fun _ _ => True) s := by
  refine Logic.wp_bind (Ψ := fun y s' => ∀ form, y = .ok form →
    Own p (fun e => inserted e = none) s'.log ∧ form.status = .published ∧ ∃ before,
      ⟨p, r, before, .forms (.find_by_public_id public_id), .ok (some form)⟩ ∈ s'.log) trivial ?_
    (fun form s₁ _ hform => ?_) fun _ _ _ _ => trivial
  · refine Logic.wp_query_bind fun s₁ he₁ => ⟨trivial, fun found s₂ hx₂ _ => ?_,
      fun _ _ _ _ _ _ _ heq => by cases heq⟩
    have hfirst : Own p (fun e => inserted e = none) s₂.log :=
      ((Own.of_fresh hfresh).of_others he₁.others).effect hx₂ rfl
    cases found with
    | none => exact fun _ _ _ heq => by cases heq
    | some form =>
      dsimp only
      split
      · next hpublished =>
        intro s₃ he₃ form' heq
        cases heq
        exact ⟨hfirst.of_others he₃.others, hpublished, _, he₃.others.mem hx₂.mem_self⟩
      · exact fun _ _ _ heq => by cases heq
      · exact fun _ _ _ heq => by cases heq
  obtain ⟨hfirst, hpublished, hfound⟩ := hform form rfl
  refine Logic.wp_query_bind fun s₂ he₂ => ⟨trivial, fun allowed s₃ hx₃ _ => ?_,
    fun _ _ _ _ _ _ => trivial⟩
  split
  · exact fun _ _ => trivial
  split
  · exact fun _ _ => trivial
  · next answers hvalid =>
    have hcomposing : Composing d.platform p r public_id payload client referer form answers
        s₃.log :=
      ⟨hr, hfound.imp fun _ hmem => hx₃.mem (he₂.others.mem hmem), hpublished, hvalid,
        (hfirst.of_others he₂.others).effect hx₃ rfl⟩
    dsimp only
    split
    · next hempty =>
      exact Logic.wp_seq trivial (wp_insert_submission_from hcomposing (List.isEmpty_iff.mp hempty))
        fun _ _ _ _ _ => trivial
    · exact Logic.wp_seq trivial (wp_insert_claiming_files_from hcomposing)
        fun _ _ _ _ _ => trivial

/-- **Every request** inserts only what is made of what was sent to it, and once. -/
theorem wp_from (r : Request) (hfresh : ∀ e ∈ s.log, e.pid ≠ p) :
    (insertLogic d.platform G).wp p r (Request.code d r) (fun _ _ => True) s := by
  by_cases hpass : r.isPass
  · refine wp_of_storesNothing ((Request.unserved hpass).mono fun q hq n now heq => hq ?_)
    rw [heq]
    trivial
  by_cases hsubmit : r.isSubmit
  · cases r with
    | submit public_id payload client referer => exact wp_submit_from hfresh rfl
    | _ => exact hsubmit.elim
  · refine wp_of_storesNothing ((Request.storesNothing hpass hsubmit).mono fun q hq n now heq => ?_)
    rw [heq] at hq
    exact hq

end Scripts

/-! ### Every run -/

/-- The row is the one the request has inserted, whatever has become of its status. -/
structure SubmittedBy (P : Platform) (p : ℕ) (r : Request) (row : SubmissionRecord)
    (log : List Event) : Prop where
  exists_insert : ∃ before n now event,
    ⟨p, r, before, .submissions (.insert n now), .ok (n.row row.id now, event)⟩ ∈ log ∧
    (n.row row.id now).Same row ∧ ComposedFrom P p r n log

section Run

variable {P : Platform} {d : Deployment} {db : Database} {w : World} {p : ℕ} {r : Request}
  {row : SubmissionRecord} {n : NewSubmission} {log log' : List Event}

theorem ComposedFrom.mono (h : ComposedFrom P p r n log) (hlog : ∀ e ∈ log, e ∈ log') :
    ComposedFrom P p r n log' := by
  obtain ⟨public_id, payload, client, referer, before, form, answers, hr, hfound,
    hpublished, hvalid,
    hn, hanswers, hfiles⟩ := h.exists_form
  exact ⟨public_id, payload, client, referer, before, form, answers, hr, hlog _ hfound, hpublished,
    hvalid, hn, hanswers, fun file hfile => (hfiles file hfile).mono hlog⟩

/-- A row of `submissions` was there at the start, or some `INSERT` has answered it. -/
theorem inserted_of_reaches (h : Reaches d anything (World.start db) w) :
    ∀ row ∈ w.shared.db.submissions.rows, (∃ row₀ ∈ db.submissions.rows, row₀.Same row) ∨
      ∃ e ∈ w.shared.log, ∃ row₀ event, inserted e = some (row₀, event) ∧ row₀.Same row := by
  refine Logic.inv_of_reaches (I := fun s => ∀ row ∈ s.db.submissions.rows,
    (∃ row₀ ∈ db.submissions.rows, row₀.Same row) ∨
      ∃ e ∈ s.log, ∃ row₀ event, inserted e = some (row₀, event) ∧ row₀.Same row)
    (fun _ r _ _ _ hfresh => wp_stored r hfresh) (stored_safe db)
    (fun row hrow => .inl ⟨row, hrow, .refl row⟩) ?_ (fun _ hs => hs) (fun hs => hs) h
  intro p r q s x s' _ hpre hs hx row hrow
  have hkept : ∀ row₁ ∈ s.db.submissions.rows, row₁.Same row →
      (∃ row₀ ∈ db.submissions.rows, row₀.Same row) ∨
        ∃ e ∈ s'.log, ∃ row₀ event, inserted e = some (row₀, event) ∧ row₀.Same row := by
    intro row₁ hrow₁ hsame
    rcases hs row₁ hrow₁ with ⟨row₀, hrow₀, hsame₀⟩ | ⟨e, he, row₀, event, hinserted, hsame₀⟩
    · exact .inl ⟨row₀, hrow₀, hsame₀.trans hsame⟩
    · exact .inr ⟨e, hx.mem he, row₀, event, hinserted, hsame₀.trans hsame⟩
  have hlog : ∀ e ∈ s.log, e ∈ s'.log := fun _ => hx.mem
  cases hx with
  | fail _ => exact hkept row hrow (.refl row)
  | run _ hrun =>
    rcases Stmt.submission_origin hrun hrow with ⟨row₁, hrow₁, hsame⟩ | ⟨ws, rfl, hws, -⟩
    · exact hkept row₁ hrow₁ hsame
    · obtain ⟨e, he, event, hinserted⟩ := hpre.1 row hws
      exact .inr ⟨e, hlog e he, row, event, hinserted, .refl row⟩

theorem insertPre_of_reaches (h : Reaches d anything (World.start db) w) :
    Throughout (fun e earlier => InsertPre d.platform e.pid e.req ⟨e.before, earlier⟩ e.stmt)
      w.shared.log :=
  Logic.throughout_of_reaches (L := insertLogic d.platform anything)
    (fun _ r _ _ _ hfresh => wp_from r hfresh) (.start trivial) h

/-- What an `INSERT` has answered. -/
theorem of_inserted {e : Event} {row₀ : SubmissionRecord} {event : Option OutboxEvent}
    (h : inserted e = some (row₀, event)) :
    ∃ p r before n now, e = ⟨p, r, before, .submissions (.insert n now), .ok (row₀, event)⟩ := by
  unfold inserted at h
  split at h
  · cases h
    exact ⟨_, _, _, _, _, rfl⟩
  · cases h

/-- A row that was not there at the start was submitted. -/
theorem submittedBy_of_reaches (h : Reaches d anything (World.start db) w)
    (hrow : row ∈ w.shared.db.submissions.rows)
    (hnew : ∀ row₀ ∈ db.submissions.rows, ¬ row₀.Same row) :
    ∃ p r, SubmittedBy d.platform p r row w.shared.log := by
  obtain ⟨e, he, row₀, event, hinserted, hsame⟩ := (inserted_of_reaches h row hrow).resolve_left
    fun hold => hold.elim fun row₀ hrow₀ => hnew row₀ hrow₀.1 hrow₀.2
  obtain ⟨p, r, before, n, now, rfl⟩ := of_inserted hinserted
  obtain ⟨c, db', hrun⟩ := h.answered _ he _ rfl
  have hanswer : row₀ = n.row row₀.id now := by
    rcases of_run_insert hrun with ⟨_, -, heq, -⟩ | ⟨-, -, heq, -⟩
    · cases heq
    · have hrow₀ : row₀ = n.row c.id now := (Prod.ext_iff.mp (Except.ok.inj heq)).1
      rw [hrow₀]
      rfl
  obtain ⟨later, earlier, hsplit⟩ := List.append_of_mem he
  have hcomposed : ComposedFrom d.platform p r n w.shared.log := by
    refine (throughout_iff.mp (insertPre_of_reaches h) later _ earlier hsplit).2.mono fun e he => ?_
    rw [hsplit]
    exact List.mem_append_right _ (List.mem_cons_of_mem _ he)
  rw [hsame.id] at hanswer
  exact ⟨p, r, before, n, now, event, hanswer ▸ he, hanswer ▸ hsame, hcomposed⟩

/-- One request submits one row: the later one of two inserts would find the earlier one. -/
theorem SubmittedBy.unique {row' : SubmissionRecord} {r r' : Request}
    (h : Reaches d anything (World.start db) w) (hrow : row ∈ w.shared.db.submissions.rows)
    (hrow' : row' ∈ w.shared.db.submissions.rows)
    (hby : SubmittedBy d.platform p r row w.shared.log)
    (hby' : SubmittedBy d.platform p r' row' w.shared.log) : row' = row := by
  obtain ⟨before, n, now, event, he, hsame, -⟩ := hby
  obtain ⟨before', n', now', event', he', -, -⟩ := hby'
  have honce : Throughout (fun e earlier => e.pid = p ∧ inserted e ≠ none →
      ∀ e' ∈ earlier, ¬ (e'.pid = p ∧ inserted e' ≠ none)) w.shared.log := by
    refine (insertPre_of_reaches h).mono fun e earlier hinsert hK e' he' hK' => ?_
    obtain ⟨⟨row₁, event₁⟩, hsome⟩ := Option.ne_none_iff_exists'.mp hK.2
    obtain ⟨p, r, before, n, now, rfl⟩ := of_inserted hsome
    exact hK'.2 (hinsert.1 e' he' (hK'.1.trans hK.1.symm))
  have heq := honce.eq_of_mem he he' ⟨rfl, nofun⟩ ⟨rfl, nofun⟩
  have hid : row.id = row'.id := by
    have hreply := congrArg inserted heq
    exact hsame.id.symm.trans (congrArg (·.1.id) (Option.some.inj hreply))
  exact Table.eq_of_key_eq _ hrow' hrow hid.symm

/-- **Every stored submission was submitted, and by one request.** A row that was not there at the
start is what one request has asked for that found a published form under its handle, with files
that were unclaimed uploads to that form when it locked them, and that request has left no other
row. -/
theorem submitted_by_one (h : Reaches d anything (World.start db) w)
    (hrow : row ∈ w.shared.db.submissions.rows)
    (hnew : ∀ row₀ ∈ db.submissions.rows, ¬ row₀.Same row) :
    ∃ p r, SubmittedBy d.platform p r row w.shared.log ∧
      ∀ row' ∈ w.shared.db.submissions.rows, ∀ r', SubmittedBy d.platform p r' row' w.shared.log →
        row' = row := by
  obtain ⟨p, r, hby⟩ := submittedBy_of_reaches h hrow hnew
  exact ⟨p, r, hby, fun row' hrow' r' hby' => hby.unique h hrow hrow' hby'⟩

/-- The submission of an uploaded file goes back to the one request that has made it. -/
theorem submitted_by_one_uploadFile :
    let w := Deployment.sample.play anything (uploadFile ++ submitFile) formWithFile
    ∃ row ∈ w.shared.db.submissions.rows, row.files.map (·.2.key) = ["k1"] ∧
      ∃ p r, SubmittedBy .sample p r row w.shared.log ∧
        ∀ row' ∈ w.shared.db.submissions.rows, ∀ r', SubmittedBy .sample p r' row' w.shared.log →
          row' = row := by
  intro w
  have hrows : w.shared.db.submissions.rows.map (fun row => row.files.map (·.2.key)) =
      [["k1"]] := by decide +kernel
  obtain ⟨row, hrow, hfiles⟩ := List.mem_map.mp (hrows ▸ List.mem_singleton_self ["k1"])
  exact ⟨row, hrow, hfiles, submitted_by_one
    (Deployment.sample.reaches_play anything (uploadFile ++ submitFile) formWithFile) hrow
    fun row₀ hrow₀ => absurd hrow₀ List.not_mem_nil⟩

end Run

end SubmitSnap
