import SubmitSnap.Interleave.History

/-!
# Serial order

Calls that run at the same time are as good as calls that run one after another if each of them has
one event in the trace, its *landing*, that does to the shared state what the whole call is for.
`serial` reads the order of the landings off the trace; a view of the state that only landings
change, each as its call says, is what the calls make of it in that order (`view_eq_foldl`).

## The argument

Whether calls that overlap are as good as calls in a row is asked of a *view* of the state and not
of all of it. The order is not chosen by the proof, it is read off the trace, as the order of the
landings. So there is nothing to search for: it remains to see that each landing changes the view
as its call would, in the state it lands in, and that nothing else changes the view at all.

The hard part is the first half, and it is a matter of snapshots. A call computes what it is going
to write from what it has read, which may be out of date by the time it writes. `Snapshot` records
what is left of such a reading: it is right up to what has outdated it since.

## Main results

* `nodup_serial` — a call that lands at most once has one place in the order.
* `Regime.Effect.view_eq_foldl` — the step that keeps a view in step with the order.
* `Snapshot.effect` — what is known from a snapshot, as long as nothing outdates it.
-/

namespace Interleave

variable {Q : Type} {R : Q → Type} {X σ ι η Req C V : Type} {Err Res : Req → Type}

/-- The calls that have landed, first to last, each with the name of its request. -/
def serial (lands : Event R X σ Req → Option C) (log : List (Event R X σ Req)) : List (ℕ × C) :=
  (log.filterMap fun e => (lands e).map fun c => (e.pid, c)).reverse

variable {lands : Event R X σ Req → Option C} {log : List (Event R X σ Req)} {e : Event R X σ Req}
  {p : ℕ} {c : C}

@[simp] theorem serial_nil : serial lands [] = [] := rfl

theorem serial_cons_of_none (h : lands e = none) : serial lands (e :: log) = serial lands log := by
  simp [serial, h]

theorem serial_cons_of_some (h : lands e = some c) :
    serial lands (e :: log) = serial lands log ++ [(e.pid, c)] := by
  simp [serial, h]

theorem mem_serial : (p, c) ∈ serial lands log ↔ ∃ e ∈ log, e.pid = p ∧ lands e = some c := by
  simp only [serial, List.mem_reverse, List.mem_filterMap, Option.map_eq_some_iff, Prod.mk.injEq]
  exact ⟨fun ⟨e, he, c', hc, hp, heq⟩ => ⟨e, he, hp, heq ▸ hc⟩,
    fun ⟨e, he, hp, hc⟩ => ⟨e, he, c, hc, hp, rfl⟩⟩

/-- No call lands twice. -/
def LandsOnce (lands : Event R X σ Req → Option C) : List (Event R X σ Req) → Prop :=
  Throughout fun e earlier => lands e ≠ none → ∀ e' ∈ earlier, e'.pid = e.pid → lands e' = none

theorem nodup_serial (h : LandsOnce lands log) : ((serial lands log).map Prod.fst).Nodup := by
  induction log with
  | nil => exact List.nodup_nil
  | cons e log ih =>
    cases hc : lands e with
    | none =>
      rw [serial_cons_of_none hc]
      exact ih h.2
    | some c =>
      rw [serial_cons_of_some hc, List.map_append, List.map_singleton, List.nodup_append]
      refine ⟨ih h.2, List.nodup_singleton _, ?_⟩
      rintro p hp _ hmem rfl
      obtain rfl := List.mem_singleton.mp hmem
      obtain ⟨⟨p, c'⟩, hp, heq⟩ := List.mem_map.mp hp
      obtain ⟨e', he', hpid, hc'⟩ := mem_serial.mp hp
      have hnone := h.1 (by simp [hc]) e' he' (hpid.trans heq)
      cases hc'.symm.trans hnone

/-- The landings of one call are one. -/
theorem LandsOnce.eq_of_mem (h : LandsOnce lands log) {e' : Event R X σ Req} (he : e ∈ log)
    (he' : e' ∈ log) (hpid : e.pid = e'.pid) (hc : lands e ≠ none) (hc' : lands e' ≠ none) :
    e = e' := by
  induction log with
  | nil => cases he
  | cons e₀ log ih =>
    rcases List.mem_cons.mp he with rfl | hmem <;> rcases List.mem_cons.mp he' with rfl | hmem'
    · rfl
    · exact absurd (h.1 hc e' hmem' hpid.symm) hc'
    · exact absurd (h.1 hc' e hmem hpid) hc
    · exact ih h.2 hmem hmem'

section View

variable {G : Regime R X σ Req} {S : Store R X σ ι η} {r : Req} {q : Q}
  {x : Except X (R q)} {s s' : Shared R X σ Req} {v₀ : V}

/-- **One more landing.** If the statement changes the view as the call that lands says, and not at
all when none does, the view is still what the calls make of it. -/
theorem Regime.Effect.view_eq_foldl (view : σ → V) (apply : C → V → V) (h : G.Effect S p r q s x s')
    (hs : view s.db = (serial lands s.log).foldl (fun v c => apply c.2 v) v₀)
    (hlands : ∀ c, lands ⟨p, r, s.db, q, x⟩ = some c → view s'.db = apply c (view s.db))
    (hquiet : lands ⟨p, r, s.db, q, x⟩ = none → view s'.db = view s.db) :
    view s'.db = (serial lands s'.log).foldl (fun v c => apply c.2 v) v₀ := by
  rw [h.log_eq]
  cases hc : lands ⟨p, r, s.db, q, x⟩ with
  | none => rw [serial_cons_of_none hc, hquiet hc, hs]
  | some c => rw [serial_cons_of_some hc, List.foldl_append, hlands c hc, hs]; rfl

end View

/-! ### Snapshots -/

/-- The state still is to an earlier one, in which an event took a snapshot, as `K` says, unless
something has outdated it. -/
def Snapshot (takes outdates : Event R X σ Req → Prop) (K : σ → σ → Prop)
    (s : Shared R X σ Req) : Prop :=
  Since takes outdates s.log → ∃ e ∈ s.log, takes e ∧ K e.before s.db

theorem Snapshot.effect {G : Regime R X σ Req} {S : Store R X σ ι η} {r : Req} {q : Q}
    {x : Except X (R q)} {s s' : Shared R X σ Req} {takes outdates : Event R X σ Req → Prop}
    {K : σ → σ → Prop} (hs : Snapshot takes outdates K s) (h : G.Effect S p r q s x s')
    (htakes : takes ⟨p, r, s.db, q, x⟩ → K s.db s'.db)
    (hkeeps : ¬ outdates ⟨p, r, s.db, q, x⟩ → ∀ before, K before s.db → K before s'.db) :
    Snapshot takes outdates K s' := by
  intro hsince
  rw [h.log_eq] at hsince
  rcases hsince with hnow | ⟨hout, hsince⟩
  · exact ⟨_, h.mem_self, hnow, htakes hnow⟩
  · obtain ⟨e, he, htaken, hK⟩ := hs hsince
    exact ⟨e, h.mem he, htaken, hkeeps hout _ hK⟩

end Interleave
