import SubmitSnap.Frames

/-!
# The delivery table: where its rows come from

Outside the webhook statements a delivery can only disappear, or forget the submission it was made
for: both happen when a row it refers to is deleted. New deliveries are only ever inserted by a
fan-out, pending and under identifiers nobody has seen before. Endpoints, likewise, are only ever
taken away.

## The argument

Results about deliveries are about runs of any of the requests, most of which have nothing to do
with deliveries. Two lemmas keep the others out of the proofs. By `Stmt.webhooks_from`, a
statement that is not one of the webhook statements can only thin the tables out; and by
`Stmt.delivery_step`, a row after any statement is one that was there, changed in one of the ways
`DeliveryStep` lists, or it has just been inserted by a fan-out. A proof about deliveries is then
a case split over `DeliveryStep`.

## Main results

* `Stmt.webhooks_from` — every other statement only thins the tables out.
* `Database.mem_insertDeliveries` — what a fan-out adds.
-/

namespace SubmitSnap

open Interleave

/-- Every delivery of `db'` is one of `db`, except that its submission may have been forgotten. -/
def DeliveriesFrom (db db' : Database) : Prop :=
  ∀ d' ∈ db'.webhook_deliveries.rows, ∃ d ∈ db.webhook_deliveries.rows,
    d' = d ∨ d' = { d with submission_id := none }

namespace DeliveriesFrom

variable {db db₁ db₂ db' : Database}

theorem of_eq (h : db'.webhook_deliveries = db.webhook_deliveries) : DeliveriesFrom db db' := by
  intro d hd
  rw [h] at hd
  exact ⟨d, hd, .inl rfl⟩

theorem trans (h : DeliveriesFrom db db₁) (h' : DeliveriesFrom db₁ db₂) :
    DeliveriesFrom db db₂ := by
  intro d₂ hd₂
  obtain ⟨d₁, hd₁, heq₁⟩ := h' d₂ hd₂
  obtain ⟨d, hd, heq⟩ := h d₁ hd₁
  refine ⟨d, hd, ?_⟩
  rcases heq₁ with rfl | rfl
  · exact heq
  · rcases heq with rfl | rfl <;> exact .inr rfl

/-- Deleting deliveries only thins the table out. -/
theorem of_deleteWhere {p : WebhookDeliveryRecord → Bool}
    (h : db'.webhook_deliveries = db.webhook_deliveries.deleteWhere p) : DeliveriesFrom db db' := by
  intro d hd
  rw [h] at hd
  exact ⟨d, (Table.mem_deleteWhere.mp hd).1, .inl rfl⟩

end DeliveriesFrom

/-- The deliveries and the endpoints of `db'` come from `db`. -/
structure WebhooksFrom (db db' : Database) : Prop where
  deliveries : DeliveriesFrom db db'
  endpoints : ∀ e ∈ db'.webhook_endpoints.rows, e ∈ db.webhook_endpoints.rows
  /-- An endpoint goes with its deliveries. -/
  owned : ∀ d ∈ db'.webhook_deliveries.rows, db.webhook_endpoints.hasKey d.endpoint_id = true →
    db'.webhook_endpoints.hasKey d.endpoint_id = true

namespace WebhooksFrom

variable {db db₁ db₂ db' : Database}

theorem of_eq (h : db'.webhook_deliveries = db.webhook_deliveries)
    (he : db'.webhook_endpoints = db.webhook_endpoints) : WebhooksFrom db db' :=
  ⟨.of_eq h, fun e hmem => by rwa [he] at hmem, fun d _ hkey => by rwa [he]⟩

theorem trans (h : WebhooksFrom db db₁) (h' : WebhooksFrom db₁ db₂) : WebhooksFrom db db₂ := by
  refine ⟨h.deliveries.trans h'.deliveries, fun e he => h.endpoints e (h'.endpoints e he),
    fun d₂ hd₂ hkey => h'.owned d₂ hd₂ ?_⟩
  obtain ⟨d₁, hd₁, rfl | rfl⟩ := h'.deliveries d₂ hd₂
  · exact h.owned _ hd₁ hkey
  · exact h.owned d₁ hd₁ hkey

end WebhooksFrom

namespace Database

variable (db : Database)

theorem cascadeSubmission_webhooks (gone : Uuid → Bool) :
    WebhooksFrom db (db.cascadeSubmission gone) := by
  refine ⟨fun d' hd' => ?_, fun _ he => he, fun _ _ hkey => hkey⟩
  simp only [cascadeSubmission, Table.mem_updateWhere] at hd'
  obtain ⟨d, hd, rfl⟩ := hd'
  refine ⟨d, hd, ?_⟩
  split
  · exact .inr rfl
  · exact .inl rfl

theorem cascadeEndpoint_webhooks (gone : Uuid → Bool) :
    WebhooksFrom db (db.cascadeEndpoint gone) := by
  refine ⟨.of_deleteWhere rfl, fun _ he => (Table.mem_deleteWhere.mp he).1, fun d hd hkey => ?_⟩
  obtain ⟨e, he, hid⟩ := Table.hasKey_iff.mp hkey
  refine Table.hasKey_iff.mpr ⟨e, Table.mem_deleteWhere.mpr ⟨he, ?_⟩, hid⟩
  rw [hid]
  exact (Table.mem_deleteWhere.mp hd).2

theorem cascadeForm_webhooks (gone : Uuid → Bool) : WebhooksFrom db (db.cascadeForm gone) := by
  unfold cascadeForm
  extract_lets db₁ db₂
  have h₁ : WebhooksFrom db db₁ := db.cascadeSubmission_webhooks _
  have h₂ : WebhooksFrom db₁ db₂ := db₁.cascadeEndpoint_webhooks _
  exact (h₁.trans h₂).trans (.of_eq rfl rfl)

theorem cascadeOrganization_webhooks (gone : Uuid) :
    WebhooksFrom db (db.cascadeOrganization gone) := by
  unfold cascadeOrganization
  extract_lets db₁ db₂ db₃
  have h₁ : WebhooksFrom db db₁ := db.cascadeForm_webhooks _
  have h₂ : WebhooksFrom db₁ db₂ := db₁.cascadeSubmission_webhooks _
  have h₃ : WebhooksFrom db₂ db₃ := db₂.cascadeEndpoint_webhooks _
  exact ((h₁.trans h₂).trans h₃).trans
    ⟨.of_deleteWhere rfl, fun _ he => he, fun _ _ hkey => hkey⟩

/-- What a fan-out adds: pending deliveries of that submission, to endpoints that have none of it
yet, under new identifiers. -/
theorem mem_insertDeliveries {organization_id submission_id : Uuid} {payload : Value}
    {endpoints : List Uuid} {id : Uuid} {d : WebhookDeliveryRecord} (hd : d ∈
      (db.insertDeliveries organization_id submission_id payload endpoints
        id).webhook_deliveries.rows) :
    d ∈ db.webhook_deliveries.rows ∨ (∃ i < endpoints.length, d.id = id + i) ∧
      d.status = .pending ∧ d.attempts = 0 ∧ d.submission_id = some submission_id ∧
      d.endpoint_id ∈ endpoints ∧
      (∀ d₀ ∈ db.webhook_deliveries.rows, d₀.endpoint_id = d.endpoint_id →
        d₀.submission_id ≠ some submission_id) ∧
      d.id ∈ (db.insertDeliveries organization_id submission_id payload endpoints id).issued := by
  induction endpoints generalizing db id with
  | nil => exact .inl hd
  | cons endpoint_id rest ih =>
    rw [insertDeliveries] at hd ⊢
    rcases ih _ hd with hd | ⟨⟨i, hi, hid⟩, hstatus, hattempts, hsub, hend, hnone, hissued⟩
    · split at hd
      · exact .inl hd
      · rename_i hthere
        rcases Table.mem_insertNew.mp hd with hd | ⟨rfl, -⟩
        · exact .inl hd
        · refine .inr ⟨⟨0, by simp, rfl⟩, rfl, rfl, rfl, by simp, by simpa using hthere, ?_⟩
          rw [if_neg hthere]
          obtain ⟨t, n, hframe⟩ :=
            insertDeliveries_frame { db.issue id with webhook_deliveries := _ }
            organization_id submission_id payload rest (id + 1)
          rw [hframe]
          simp [issue]
    · refine .inr ⟨⟨i + 1, by simpa using hi, hid.trans (Nat.add_right_comm id 1 i)⟩, hstatus,
        hattempts, hsub, List.mem_cons_of_mem _ hend, fun d₀ hd₀ => hnone d₀ ?_, hissued⟩
      split
      · exact hd₀
      · exact Table.mem_insertNew_of_mem hd₀

end Database

section Statements

variable {P : Platform} {p : ℕ} {c : Choice} {db db' : Database}

/-- Statements that are not the webhooks' own only thin deliveries and endpoints out. -/
theorem Stmt.webhooks_from {q : Stmt} {x : Except Failure q.Reply}
    (hq : ∀ q', q ≠ .webhooks q') (h : q.run P p c db = some (db', x)) :
    WebhooksFrom db db' := by
  cases hreach : Part.webhook_deliveries.reachedBy q with
  | false =>
    -- whatever reaches the endpoints reaches their deliveries too
    have hendpoints : Part.webhook_endpoints.reachedBy q = false := by
      cases q with
      | webhooks q => exact absurd rfl (hq q)
      | forms q | organizations q => cases q <;> first | rfl | cases hreach
      | _ => rfl
    exact .of_eq (Stmt.footprint .webhook_deliveries hreach h)
      (Stmt.footprint .webhook_endpoints hendpoints h)
  | true =>
    cases q with
    | webhooks q => exact absurd rfl (hq q)
    | submissions q =>
      cases q with
      | delete organization_id id =>
        simp only [Stmt.run, SubmissionStmt.run] at h
        (repeat' split at h) <;> cases h
        · exact .of_eq rfl rfl
        · exact db.cascadeSubmission_webhooks _
      | _ => cases hreach
    | forms q =>
      cases q with
      | delete organization_id id =>
        simp only [Stmt.run, FormStmt.run] at h
        (repeat' split at h) <;> cases h
        · exact .of_eq rfl rfl
        · exact db.cascadeForm_webhooks _
      | _ => cases hreach
    | organizations q =>
      cases q with
      | delete id =>
        simp only [Stmt.run, OrganizationStmt.run] at h
        split at h <;> cases h
        exact db.cascadeOrganization_webhooks id
      | _ => cases hreach
    | _ => cases hreach

theorem Stmt.deliveries_from {q : Stmt} {x : Except Failure q.Reply}
    (hq : ∀ q', q ≠ .webhooks q') (h : q.run P p c db = some (db', x)) : DeliveriesFrom db db' :=
  (Stmt.webhooks_from hq h).deliveries

/-- Where an endpoint that is there after a statement comes from. -/
inductive EndpointStep (db : Database) : Stmt → WebhookEndpointRecord → Prop where
  | kept {q : Stmt} {e : WebhookEndpointRecord} (h : e ∈ db.webhook_endpoints.rows) :
    EndpointStep db q e
  | created {organization_id : Uuid} {form_id : Option Uuid} {url secret : String}
      {description : Option String} {e : WebhookEndpointRecord} (heq : e.url = url)
      (henabled : e.enabled = true)
      (hurl : (starts_with url "http://" || starts_with url "https://") = true) :
    EndpointStep db (.webhooks (.create_endpoint organization_id form_id url secret description)) e
  | changed {organization_id : Uuid} {changes : EndpointChanges} {e : WebhookEndpointRecord}
      (hfound : db.endpointOf organization_id e.id = some e)
      (hurl : (starts_with (changes.url.getD e.url) "http://" ||
        starts_with (changes.url.getD e.url) "https://") = true) :
    EndpointStep db (.webhooks (.update_endpoint organization_id e.id changes))
      { e with
        url := changes.url.getD e.url
        description := changes.description.getD e.description
        enabled := changes.enabled.getD e.enabled
        form_id := changes.form_id.getD e.form_id }
  | rekeyed {organization_id : Uuid} {secret : String} {e : WebhookEndpointRecord}
      (hfound : db.endpointOf organization_id e.id = some e) :
    EndpointStep db (.webhooks (.set_endpoint_secret organization_id e.id secret))
      { e with secret := secret }

/-- **One statement and the endpoints.** -/
theorem Stmt.endpoint_step {q : Stmt} {x : Except Failure q.Reply}
    (h : q.run P p c db = some (db', x)) {e' : WebhookEndpointRecord}
    (he' : e' ∈ db'.webhook_endpoints.rows) : EndpointStep db q e' := by
  by_cases hq : ∃ q', q = .webhooks q'
  · obtain ⟨q', rfl⟩ := hq
    cases q' with
    | update_endpoint organization_id id changes =>
      simp only [Stmt.run, WebhookStmt.run] at h
      split at h
      · split at h
        · cases h
          exact .kept he'
        · next e hfound =>
          have hmem : e ∈ db.webhook_endpoints.rows := List.mem_of_find?_eq_some hfound
          have hsel : e.organization_id = organization_id ∧ e.id = id := by
            simpa using List.find?_some hfound
          split at h
          · cases h
            exact .kept he'
          · next hurl =>
            split at h <;> cases h
            · exact .kept he'
            · obtain ⟨e₁, he₁, ⟨hthis, rfl⟩ | ⟨-, rfl⟩⟩ := Table.of_mem_updateWhere he'
              · have hid : e₁.organization_id = organization_id ∧ e₁.id = id := by simpa using hthis
                obtain rfl := db.webhook_endpoints.eq_of_key_eq he₁ hmem (hid.2.trans hsel.2.symm)
                obtain ⟨-, rfl⟩ := hid
                rw [Bool.not_eq_true, Bool.not_eq_false'] at hurl
                exact .changed hfound hurl
              · exact .kept he₁
      · cases h
    | set_endpoint_secret organization_id id secret =>
      simp only [Stmt.run, WebhookStmt.run] at h
      (repeat' split at h) <;> cases h
      · exact .kept he'
      · exact .kept he'
      · next e hfound _ =>
        have hmem : e ∈ db.webhook_endpoints.rows := List.mem_of_find?_eq_some hfound
        have hsel : e.organization_id = organization_id ∧ e.id = id := by
          simpa using List.find?_some hfound
        obtain ⟨e₁, he₁, ⟨hthis, rfl⟩ | ⟨-, rfl⟩⟩ := Table.of_mem_updateWhere he'
        · have hid : e₁.organization_id = organization_id ∧ e₁.id = id := by simpa using hthis
          obtain rfl := db.webhook_endpoints.eq_of_key_eq he₁ hmem (hid.2.trans hsel.2.symm)
          obtain ⟨-, rfl⟩ := hid
          exact .rekeyed hfound
        · exact .kept he₁
    | create_endpoint organization_id form_id url secret description =>
      simp only [Stmt.run, WebhookStmt.run] at h
      (repeat' split at h) <;> cases h
      · exact .kept he'
      · exact .kept he'
      · exact .kept he'
      · exact .kept he'
      · next hurl _ _ =>
        rcases Table.mem_insertNew.mp he' with he | ⟨rfl, -⟩
        · exact .kept he
        · rw [Bool.not_eq_true, Bool.not_eq_false'] at hurl
          exact .created rfl rfl hurl
    | delete_endpoint organization_id id =>
      simp only [Stmt.run, WebhookStmt.run] at h
      (repeat' split at h) <;> cases h
      · exact .kept he'
      · exact .kept (Table.mem_deleteWhere.mp he').1
    | fan_out_insert organization_id submission_id payload endpoints =>
      simp only [Stmt.run, WebhookStmt.run] at h
      (repeat' split at h) <;> cases h
      · exact .kept he'
      · exact .kept he'
      · exact .kept he'
      · obtain ⟨t, n, hframe⟩ := Database.insertDeliveries_frame db organization_id submission_id
          payload endpoints c.id
        rw [hframe] at he'
        exact .kept he'
    | find_endpoint _ _ | form_belongs_to _ _ | fan_out_scan _ _ | claim_due_deliveries _ _
    | mark_delivered _ _ | record_attempt_failure _ _ _ _ _ | find_delivery _ _
    | requeue_delivery _ _ =>
      cases h
      exact .kept he'
  · exact .kept ((Stmt.webhooks_from (fun q' hq' => hq ⟨q', hq'⟩) h).endpoints e' he')

/-- Whether a statement picks this delivery to write it. -/
def Stmt.selects (db : Database) (d : WebhookDeliveryRecord) : Stmt → Prop
  | .webhooks (.claim_due_deliveries limit _) => d ∈ db.dueDeliveries.take limit
  | .webhooks (.mark_delivered id _) | .webhooks (.record_attempt_failure id _ _ _ _) => id = d.id
  | .webhooks (.requeue_delivery organization_id id) =>
    organization_id = d.organization_id ∧ id = d.id
  | _ => False

/-- What a statement can make of a delivery. -/
inductive DeliveryStep (db : Database) :
    Stmt → WebhookDeliveryRecord → WebhookDeliveryRecord → Prop where
  | kept {q : Stmt} {d : WebhookDeliveryRecord} (h : ¬ q.selects db d) : DeliveryStep db q d d
  /-- The submission it was made for has been deleted. -/
  | forgotten {q : Stmt} {d : WebhookDeliveryRecord} (h : ¬ q.selects db d) :
    DeliveryStep db q d { d with submission_id := none }
  | claimed {limit lease_seconds : ℕ} {d : WebhookDeliveryRecord}
    (h : d ∈ db.dueDeliveries.take limit) :
    DeliveryStep db (.webhooks (.claim_due_deliveries limit lease_seconds)) d
      { d with
        attempts := d.attempts + 1, next_attempt_at := db.clock + seconds lease_seconds }
  | delivered {response_status : ℕ} {d : WebhookDeliveryRecord} :
    DeliveryStep db (.webhooks (.mark_delivered d.id response_status)) d
      { d with
        status := .delivered, response_status := some response_status
        delivered_at := some db.clock, last_error := none }
  | failed {attempts delay_seconds : ℕ} {error : String} {response_status : Option ℕ}
    {d : WebhookDeliveryRecord} :
    DeliveryStep db
      (.webhooks (.record_attempt_failure d.id attempts error delay_seconds response_status)) d
      { d with
        status := if MAX_ATTEMPTS ≤ attempts then .failed else .pending
        response_status := response_status
        last_error := some (String.ofList (error.toList.take 500))
        next_attempt_at := db.clock + seconds delay_seconds }
  | requeued {d : WebhookDeliveryRecord} :
    DeliveryStep db (.webhooks (.requeue_delivery d.organization_id d.id)) d
      { d with status := .pending, next_attempt_at := db.clock, last_error := none }

/-- `d'` has just been made by a fan-out. -/
structure NewDelivery (db db' : Database) (q : Stmt) (d' : WebhookDeliveryRecord) : Prop where
  fan_out : ∃ organization_id submission_id payload endpoints,
    q = .webhooks (.fan_out_insert organization_id submission_id payload endpoints) ∧
    d'.endpoint_id ∈ endpoints ∧ ∀ d ∈ db.webhook_deliveries.rows,
      d.endpoint_id = d'.endpoint_id → d.submission_id ≠ some submission_id
  endpoint : db'.webhook_endpoints.hasKey d'.endpoint_id = true
  status : d'.status = .pending
  attempts : d'.attempts = 0
  new : d'.id ∉ db.issued
  issued : d'.id ∈ db'.issued

theorem WebhookStmt.delivery_step {q : WebhookStmt} {x : Except Failure q.Reply}
    (h : q.run p c db = some (db', x)) {d' : WebhookDeliveryRecord}
    (hd' : d' ∈ db'.webhook_deliveries.rows) :
    (∃ d ∈ db.webhook_deliveries.rows, DeliveryStep db (.webhooks q) d d') ∨
      NewDelivery db db' (.webhooks q) d' := by
  cases q with
  | fan_out_insert organization_id submission_id payload endpoints =>
    have hkept : d' ∈ db.webhook_deliveries.rows → ∃ d ∈ db.webhook_deliveries.rows,
        DeliveryStep db
          (.webhooks (.fan_out_insert organization_id submission_id payload endpoints)) d d' :=
      fun hd => ⟨d', hd, .kept id⟩
    simp only [WebhookStmt.run] at h
    split at h
    · next hunused =>
      (repeat' split at h) <;> cases h
      · exact .inl (hkept hd')
      · exact .inl (hkept hd')
      · exact .inl (hkept hd')
      · next hthere _ =>
        rcases Database.mem_insertDeliveries db hd' with
          hd | ⟨⟨i, hi, hid⟩, hstatus, hattempts, -, hendpoint, hnone, hissued⟩
        · exact .inl (hkept hd)
        · have hnew := List.all_eq_true.mp hunused i (List.mem_range.mpr hi)
          refine .inr ⟨⟨_, _, _, _, rfl, hendpoint, hnone⟩, ?_, hstatus, hattempts, ?_, hissued⟩
          · obtain ⟨t, n, hframe⟩ := Database.insertDeliveries_frame db organization_id
              submission_id payload endpoints c.id
            rw [hframe]
            simpa using List.any_eq_false.mp (Bool.eq_false_iff.mpr hthere) _ hendpoint
          · rw [hid]
            simpa [Database.unused] using hnew
    · cases h
  | claim_due_deliveries limit lease_seconds =>
    cases h
    obtain ⟨d, hd, ⟨hsel, rfl⟩ | ⟨hsel, rfl⟩⟩ := Table.of_mem_updateWhere hd'
    · obtain ⟨d₀, hd₀, hid⟩ := List.mem_map.mp (of_decide_eq_true hsel)
      have hrow : d₀ ∈ db.webhook_deliveries.rows := (List.mem_filter.mp
        ((List.mem_insertionSort _).mp (List.mem_of_mem_take hd₀))).1
      rw [db.webhook_deliveries.eq_of_key_eq hrow hd hid] at hd₀
      exact .inl ⟨d, hd, .claimed hd₀⟩
    · refine .inl ⟨d', hd, .kept fun hmem => ?_⟩
      exact of_decide_eq_false hsel (List.mem_map.mpr ⟨d', hmem, rfl⟩)
  | mark_delivered id response_status =>
    cases h
    obtain ⟨d, hd, ⟨hsel, rfl⟩ | ⟨hsel, rfl⟩⟩ := Table.of_mem_updateWhere hd'
    · obtain rfl := beq_iff_eq.mp hsel
      exact .inl ⟨d, hd, .delivered⟩
    · exact .inl ⟨d', hd, .kept fun heq => by simp [show id = d'.id from heq] at hsel⟩
  | record_attempt_failure id attempts error delay_seconds response_status =>
    cases h
    obtain ⟨d, hd, ⟨hsel, rfl⟩ | ⟨hsel, rfl⟩⟩ := Table.of_mem_updateWhere hd'
    · obtain rfl := beq_iff_eq.mp hsel
      refine .inl ⟨d, hd, ?_⟩
      simpa using @DeliveryStep.failed db attempts delay_seconds error response_status d
    · exact .inl ⟨d', hd, .kept fun heq => by simp [show id = d'.id from heq] at hsel⟩
  | requeue_delivery organization_id id =>
    cases h
    obtain ⟨d, hd, ⟨hsel, rfl⟩ | ⟨hsel, rfl⟩⟩ := Table.of_mem_updateWhere hd'
    · obtain ⟨horg, hid⟩ := Bool.and_eq_true_iff.mp hsel
      obtain rfl := beq_iff_eq.mp horg
      obtain rfl := beq_iff_eq.mp hid
      exact .inl ⟨d, hd, .requeued⟩
    · refine .inl ⟨d', hd, .kept fun heq => ?_⟩
      obtain ⟨horg, hid⟩ : organization_id = d'.organization_id ∧ id = d'.id := heq
      simp [horg, hid] at hsel
  | delete_endpoint organization_id id =>
    simp only [WebhookStmt.run] at h
    (repeat' split at h) <;> cases h
    · exact .inl ⟨d', hd', .kept (by simp [Stmt.selects])⟩
    · exact .inl ⟨d', (Table.mem_deleteWhere.mp hd').1, .kept (by simp [Stmt.selects])⟩
  | create_endpoint _ _ _ _ _ | find_endpoint _ _ | set_endpoint_secret _ _ _
  | update_endpoint _ _ _ | form_belongs_to _ _ | fan_out_scan _ _ | find_delivery _ _ =>
    simp only [WebhookStmt.run] at h
    (repeat' split at h) <;> cases h <;> exact .inl ⟨d', hd', .kept (by simp [Stmt.selects])⟩

/-- **Where a delivery comes from**: a row that was there before and that the statement has made
something of, or a fan-out. -/
theorem Stmt.delivery_step {q : Stmt} {x : Except Failure q.Reply}
    (h : q.run P p c db = some (db', x)) {d' : WebhookDeliveryRecord}
    (hd' : d' ∈ db'.webhook_deliveries.rows) :
    (∃ d ∈ db.webhook_deliveries.rows, DeliveryStep db q d d') ∨ NewDelivery db db' q d' := by
  by_cases hq : ∃ q', q = .webhooks q'
  · obtain ⟨q', rfl⟩ := hq
    exact WebhookStmt.delivery_step h hd'
  · have hsel : ∀ d, ¬ q.selects db d := fun d hsel => by
      unfold Stmt.selects at hsel
      split at hsel
      all_goals first | exact hq ⟨_, rfl⟩ | exact hsel
    obtain ⟨d, hd, rfl | rfl⟩ := Stmt.deliveries_from (fun q' hq' => hq ⟨q', hq'⟩) h d' hd'
    · exact .inl ⟨_, hd, .kept (hsel _)⟩
    · exact .inl ⟨d, hd, .forgotten (hsel d)⟩

/-- Every delivery has its endpoint. -/
def DeliveriesOwned (db : Database) : Prop :=
  ∀ d ∈ db.webhook_deliveries.rows, db.webhook_endpoints.hasKey d.endpoint_id = true

instance : Decidable (DeliveriesOwned db) :=
  inferInstanceAs (Decidable (∀ d ∈ db.webhook_deliveries.rows,
    db.webhook_endpoints.hasKey d.endpoint_id = true))

/-- A webhook statement takes no endpoint away but with its deliveries. -/
theorem WebhookStmt.endpoint_kept {q : WebhookStmt} {x : Except Failure q.Reply}
    (h : q.run p c db = some (db', x)) {d : WebhookDeliveryRecord}
    (hd : d ∈ db'.webhook_deliveries.rows)
    (hkey : db.webhook_endpoints.hasKey d.endpoint_id = true) :
    db'.webhook_endpoints.hasKey d.endpoint_id = true := by
  cases q with
  | create_endpoint organization_id form_id url secret description =>
    simp only [WebhookStmt.run] at h
    (repeat' split at h) <;> cases h
    · exact hkey
    · exact hkey
    · exact hkey
    · exact hkey
    · obtain ⟨e, he, hid⟩ := Table.hasKey_iff.mp hkey
      exact Table.hasKey_iff.mpr ⟨e, Table.mem_insertNew_of_mem he, hid⟩
  | update_endpoint organization_id id changes =>
    simp only [WebhookStmt.run] at h
    (repeat' split at h) <;> cases h
    · exact hkey
    · exact hkey
    · exact hkey
    · rw [Table.hasKey_updateWhere]
      exact hkey
  | set_endpoint_secret organization_id id secret =>
    simp only [WebhookStmt.run] at h
    (repeat' split at h) <;> cases h
    · exact hkey
    · exact hkey
    · rw [Table.hasKey_updateWhere]
      exact hkey
  | delete_endpoint organization_id id =>
    simp only [WebhookStmt.run] at h
    (repeat' split at h) <;> cases h
    · exact hkey
    · exact (db.cascadeEndpoint_webhooks _).owned d hd hkey
  | fan_out_insert organization_id submission_id payload endpoints =>
    simp only [WebhookStmt.run] at h
    (repeat' split at h) <;> cases h
    · exact hkey
    · exact hkey
    · exact hkey
    · obtain ⟨t, n, hframe⟩ := Database.insertDeliveries_frame db organization_id submission_id
        payload endpoints c.id
      rw [hframe]
      exact hkey
  | find_endpoint _ _ | form_belongs_to _ _ | fan_out_scan _ _ | claim_due_deliveries _ _
  | mark_delivered _ _ | record_attempt_failure _ _ _ _ _ | find_delivery _ _
  | requeue_delivery _ _ =>
    cases h
    exact hkey

theorem Stmt.deliveriesOwned {q : Stmt} {x : Except Failure q.Reply}
    (h : q.run P p c db = some (db', x)) (hdb : DeliveriesOwned db) : DeliveriesOwned db' := by
  intro d' hd'
  rcases Stmt.delivery_step h hd' with ⟨d, hd, hstep⟩ | hnew
  · have hendpoint : d'.endpoint_id = d.endpoint_id := by cases hstep <;> rfl
    have hkey := hendpoint ▸ hdb d hd
    by_cases hq : ∃ q', q = .webhooks q'
    · obtain ⟨q', rfl⟩ := hq
      exact WebhookStmt.endpoint_kept h hd' hkey
    · exact (Stmt.webhooks_from (fun q' hq' => hq ⟨q', hq'⟩) h).owned d' hd' hkey
  · exact hnew.endpoint

theorem DeliveryStep.id_eq {q : Stmt} {d d' : WebhookDeliveryRecord} (h : DeliveryStep db q d d') :
    d'.id = d.id := by
  cases h <;> rfl

theorem DeliveryStep.endpoint_id_eq {q : Stmt} {d d' : WebhookDeliveryRecord}
    (h : DeliveryStep db q d d') : d'.endpoint_id = d.endpoint_id := by
  cases h <;> rfl

/-- Only a claim counts an attempt. -/
theorem DeliveryStep.attempts_eq {q : Stmt} {d d' : WebhookDeliveryRecord}
    (h : DeliveryStep db q d d')
    (hq : ∀ limit lease_seconds, q ≠ .webhooks (.claim_due_deliveries limit lease_seconds)) :
    d'.attempts = d.attempts := by
  cases h with
  | claimed => exact absurd rfl (hq _ _)
  | kept | forgotten | delivered | failed | requeued => rfl

/-- What a failure leaves of the delivery it names. -/
theorem DeliveryStep.of_failure {id : Uuid} {attempts delay_seconds : ℕ} {error : String}
    {response_status : Option ℕ} {d d' : WebhookDeliveryRecord} (h : DeliveryStep db
      (.webhooks (.record_attempt_failure id attempts error delay_seconds response_status)) d d')
    (hid : id = d.id) :
    d'.status = (if MAX_ATTEMPTS ≤ attempts then .failed else .pending) ∧
      d'.next_attempt_at = db.clock + seconds delay_seconds := by
  cases h with
  | kept hsel => exact absurd hid hsel
  | forgotten hsel => exact absurd hid hsel
  | failed => exact ⟨rfl, rfl⟩

/-- The statements that write the status of the delivery `id`. -/
def WebhookStmt.writesStatus (id : Uuid) : WebhookStmt → Prop
  | mark_delivered id' _ | record_attempt_failure id' _ _ _ _ | requeue_delivery _ id' => id' = id
  | _ => False

/-- The webhook statements change the status of a delivery only where they say so. -/
theorem WebhookStmt.delivery_origin {q : WebhookStmt} {x : Except Failure q.Reply}
    (h : q.run p c db = some (db', x)) {d' : WebhookDeliveryRecord}
    (hd' : d' ∈ db'.webhook_deliveries.rows) :
    (∃ d ∈ db.webhook_deliveries.rows, d'.id = d.id ∧
      (d'.status = d.status ∨ q.writesStatus d.id)) ∨
    (d'.status = .pending ∧ d'.id ∉ db.issued ∧ d'.id ∈ db'.issued) := by
  rcases WebhookStmt.delivery_step h hd' with ⟨d, hd, hstep⟩ | hnew
  · refine .inl ⟨d, hd, hstep.id_eq, ?_⟩
    cases hstep with
    | kept | forgotten | claimed => exact .inl rfl
    | delivered | failed | requeued => exact .inr rfl
  · exact .inr ⟨hnew.status, hnew.new, hnew.issued⟩

end Statements

end SubmitSnap
