import Mathlib

/-!
# The generic cell rate algorithm

A limiter of a certain capacity regains one cell every interval. It remembers a single moment, the
theoretical arrival time: the moment at which it would be full again. A request is refused if that
is more than the capacity, but for one cell, away.

What has been accepted determines the theoretical arrival time: it is the latest one that any of the
accepted requests entails, and a request entails an interval for itself and one for each accepted
after it. So a burst is limited by its length, and a limiter whose capacity lasts for a window of
time honours a budget of that many requests in every such window.

## The argument

The theoretical arrival time is a running maximum, so it can be read off the accepted requests
alone: a request at `t` with `n` requests accepted after it entails `t + (n + 1)` intervals, and
the value kept is the largest of these (`Tracks`). With that the state disappears from the proofs.
A request is accepted if it is not too early for any of the subsequences that end with it, which
is what `Spaced` says of the whole sequence.

Both halves of the budget follow. Within a window all subsequences are short, so nothing is
refused; and what is spaced cannot crowd into a window that the capacity lasts for. The converse
is settled by two bursts, of which the second comes just when the window is over: whoever accepts
both must have regained the whole capacity in between.

## Main definitions

* `Gcra.accepted` — the requests of a sequence that are accepted.
* `Gcra.Honours` — the budget of a window.

## Main results

* `Gcra.accepted_spaced` — how far apart the ends of an accepted sequence are.
* `Gcra.accepted_eq_self` — nothing is refused within the budget.
* `Gcra.honours_iff` — the budget of a window is honoured exactly if the capacity lasts for it.
-/

variable {K : Type} [CommRing K] [LinearOrder K]

/-- A limiter: how many requests it takes at once, and how long it needs to regain one. -/
structure Gcra (K : Type) where
  capacity : ℕ
  interval : K

namespace Gcra

/-- Whether a request at the time `t` is accepted, for a theoretical arrival time. -/
def conforms (g : Gcra K) (arrival : Option K) (t : K) : Bool :=
  arrival.all fun a => a ≤ t + (g.capacity - 1) * g.interval

/-- The theoretical arrival time after a request that is accepted. -/
def next (g : Gcra K) (arrival : Option K) (t : K) : K :=
  arrival.elim t (max · t) + g.interval

/-- The requests that are accepted, of a sequence of request times. -/
def accepted (g : Gcra K) : Option K → List K → List K
  | _, [] => []
  | arrival, t :: times =>
    if g.conforms arrival t then t :: g.accepted (some (g.next arrival t)) times
    else g.accepted arrival times

/-- The requests in a half-open window. -/
def within (a width : K) (times : List K) : List K := times.filter fun t => a ≤ t ∧ t < a + width

/-- At most `n` requests in every window. -/
def AtMost (n : ℕ) (width : K) (times : List K) : Prop :=
  ∀ a, (within a width times).length ≤ n

/-- A budget of `n` requests in a window: nothing is refused within it, and never more than twice as
much is accepted. -/
structure Honours (g : Gcra K) (n : ℕ) (width : K) : Prop where
  refuses_none : ∀ times : List K, times.Pairwise (· ≤ ·) → AtMost n width times →
    g.accepted none times = times
  at_most : ∀ times : List K, times.Pairwise (· ≤ ·) →
    AtMost (2 * n) width (g.accepted none times)

/-- A subsequence of what has gone on ends with what is new, or is an old one. -/
theorem sublist_concat_cases {α : Type} {l past : List α} {t : α} (h : l.Sublist (past ++ [t])) :
    l.Sublist past ∨ ∃ l', l = l' ++ [t] ∧ l'.Sublist past := by
  obtain ⟨l₁, l₂, rfl, h₁, h₂⟩ := List.sublist_append_iff.mp h
  rcases List.sublist_singleton.mp h₂ with rfl | rfl
  · exact .inl (by rwa [List.append_nil])
  · exact .inr ⟨l₁, rfl, h₁⟩

theorem head_le_last {α : Type} [LinearOrder α] {times : List α} {t u : α}
    (hsorted : times.Pairwise (· ≤ ·)) (hhead : times.head? = some t)
    (hlast : times.getLast? = some u) : t ≤ u := by
  obtain ⟨rest, rfl⟩ := List.head?_eq_some_iff.mp hhead
  rcases List.mem_cons.mp (List.mem_of_getLast? hlast) with rfl | hu
  · exact le_rfl
  · exact (List.pairwise_cons.mp hsorted).1 u hu

variable {g : Gcra K} {arrival : Option K} {past times l : List K} {t u x a width : K} {n : ℕ}

/-! ### The theoretical arrival time -/

/-- What has been accepted, and the theoretical arrival time it entails: the latest of those its
subsequences entail. -/
structure Tracks (g : Gcra K) (past : List K) (arrival : Option K) : Prop where
  le : ∀ t l, (t :: l).Sublist past → ∃ x ∈ arrival, t + (l.length + 1) * g.interval ≤ x
  attained : ∀ x ∈ arrival, ∃ t l, (t :: l).Sublist past ∧ x = t + (l.length + 1) * g.interval

theorem tracks_nil : g.Tracks [] none :=
  ⟨fun _ _ h => absurd (List.eq_nil_of_sublist_nil h) (List.cons_ne_nil _ _), nofun⟩

theorem next_some : g.next (some x) t = max x t + g.interval := rfl

/-- The ends of every subsequence are as far apart as the cells in excess of the capacity take. -/
def Spaced (g : Gcra K) (times : List K) : Prop :=
  ∀ t l u, (t :: (l ++ [u])).Sublist times →
    t + (l.length + 1) * g.interval ≤ u + (g.capacity - 1) * g.interval

theorem Spaced.accept (h : g.Spaced past) (htracks : g.Tracks past arrival)
    (hconforms : g.conforms arrival t = true) : g.Spaced (past ++ [t]) := by
  intro u l v hl
  rcases sublist_concat_cases hl with hold | ⟨l', heq, hl'⟩
  · exact h u l v hold
  · rw [← List.cons_append] at heq
    obtain ⟨rfl, hv⟩ := List.append_inj' heq rfl
    obtain rfl : v = t := List.singleton_inj.mp hv
    obtain ⟨x, rfl, hle⟩ := htracks.le u l hl'
    exact hle.trans (of_decide_eq_true hconforms)

theorem AtMost.sublist (h : AtMost n width times) (hl : l.Sublist times) : AtMost n width l :=
  fun a => (hl.filter _).length_le.trans (h a)

/-- After `n` requests a window is over. -/
theorem window_le (hsorted : times.Pairwise (· ≤ ·)) (hwindow : AtMost n width times)
    (hhead : times.head? = some t) (hnth : times[n]? = some u) : t + width ≤ u := by
  obtain ⟨rest, rfl⟩ := List.head?_eq_some_iff.mp hhead
  by_contra hlt
  have htake : ((t :: rest).take (n + 1)).length = n + 1 := by
    rw [List.length_take, min_eq_left]
    exact Nat.succ_le_of_lt (List.getElem?_eq_some_iff.mp hnth).1
  have hwithin : within t width ((t :: rest).take (n + 1)) = (t :: rest).take (n + 1) := by
    refine List.filter_eq_self.mpr fun y hy => decide_eq_true ⟨?_, ?_⟩
    · rcases List.mem_cons.mp (List.mem_of_mem_take hy) with rfl | hy
      · exact le_rfl
      · exact (List.pairwise_cons.mp hsorted).1 y hy
    · refine lt_of_le_of_lt ?_ (not_le.mp hlt)
      rw [List.take_add_one, hnth] at hy
      rcases List.mem_append.mp hy with hy | hy
      · rw [← List.take_append_drop n (t :: rest), List.pairwise_append] at hsorted
        exact hsorted.2.2 y hy u (List.mem_of_head? (by rw [List.head?_drop, hnth]))
      · exact (List.mem_singleton.mp hy).le
  have hle := (hwindow.sublist (List.take_sublist (n + 1) _)) t
  rw [hwithin, htake] at hle
  omega

/-- The budget of a window at once, and again as soon as the window is over. -/
def bursts (n : ℕ) (width : K) : List K := List.replicate n 0 ++ List.replicate n width

theorem sorted_bursts (h : 0 ≤ width) : (bursts n width).Pairwise (· ≤ ·) := by
  refine List.pairwise_append.mpr ⟨?_, ?_, fun t ht u hu => ?_⟩
  · exact List.pairwise_replicate.mpr (.inr le_rfl)
  · exact List.pairwise_replicate.mpr (.inr le_rfl)
  · rw [List.eq_of_mem_replicate ht, List.eq_of_mem_replicate hu]
    exact h

variable [IsStrictOrderedRing K]

theorem le_next (arrival : Option K) : t + g.interval ≤ g.next arrival t := by
  cases arrival with
  | none => exact le_rfl
  | some x => exact add_le_add_left (le_max_right x t) _

/-- Another request is accepted. -/
theorem Tracks.accept (h : g.Tracks past arrival) (hinterval : 0 ≤ g.interval) (t : K) :
    g.Tracks (past ++ [t]) (some (g.next arrival t)) where
  le u l hl := by
    refine ⟨_, rfl, ?_⟩
    rcases sublist_concat_cases hl with hold | ⟨l', heq, hl'⟩
    · obtain ⟨x, rfl, hle⟩ := h.le u l hold
      rw [next_some]
      linarith [le_max_left x t]
    · cases l' with
      | nil =>
        obtain ⟨rfl, rfl⟩ := List.cons.inj heq
        simpa using le_next arrival
      | cons u' l' =>
        rw [List.cons_append] at heq
        obtain ⟨rfl, rfl⟩ := List.cons.inj heq
        obtain ⟨x, rfl, hle⟩ := h.le u l' hl'
        rw [next_some, List.length_append, List.length_singleton]
        push_cast
        linarith [le_max_left x t]
  attained := by
    rintro _ ⟨⟩
    have hself : g.next arrival t = t + g.interval →
        ∃ u l, (u :: l).Sublist (past ++ [t]) ∧
          g.next arrival t = u + (l.length + 1) * g.interval := by
      intro hnext
      refine ⟨t, [], List.sublist_append_right _ _, ?_⟩
      rw [hnext, List.length_nil]
      push_cast
      ring
    cases arrival with
    | none => exact hself rfl
    | some x =>
      rcases le_total x t with hle | hle
      · exact hself (by rw [next_some, max_eq_right hle])
      · obtain ⟨u, l, hl, rfl⟩ := h.attained x rfl
        refine ⟨u, l ++ [t], hl.append_right [t], ?_⟩
        rw [next_some, max_eq_left hle, List.length_append, List.length_singleton]
        push_cast
        ring

/-! ### How far apart accepted requests are -/

theorem accepted_spaced_aux (hinterval : 0 ≤ g.interval) (htracks : g.Tracks past arrival)
    (h : g.Spaced past) : g.Spaced (past ++ g.accepted arrival times) := by
  induction times generalizing past arrival with
  | nil => rwa [accepted, List.append_nil]
  | cons t times ih =>
    rw [accepted]
    split
    · next hconforms =>
      rw [List.append_cons]
      exact ih (htracks.accept hinterval t) (h.accept htracks hconforms)
    · exact ih htracks h

/-- **What is accepted is spaced.** -/
theorem accepted_spaced (hinterval : 0 ≤ g.interval) : g.Spaced (g.accepted none times) :=
  accepted_spaced_aux hinterval tracks_nil fun _ _ _ h =>
    absurd (List.eq_nil_of_sublist_nil h) (List.cons_ne_nil _ _)

/-! ### Windows -/

theorem AtMost.narrow (h : AtMost n width times) (hx : x ≤ width) : AtMost n x times := by
  intro a
  refine (List.Sublist.length_le (List.monotone_filter_right times fun t ht => ?_)).trans (h a)
  simp only [decide_eq_true_eq] at ht ⊢
  exact ⟨ht.1, by linarith [ht.2]⟩

/-- What is spaced has few requests in a window that the capacity lasts for. -/
theorem Spaced.atMost (h : g.Spaced times) (hinterval : 0 < g.interval) (hcapacity : 1 ≤ g.capacity)
    (hwidth : width ≤ g.capacity * g.interval) : AtMost (2 * g.capacity) width times := by
  intro a
  have hsub : (within a width times).Sublist times := List.filter_sublist
  have hmem : ∀ t ∈ within a width times, a ≤ t ∧ t < a + width := fun t ht => by
    simpa using List.of_mem_filter ht
  cases hwithin : within a width times with
  | nil => exact Nat.zero_le _
  | cons t rest =>
    rcases List.eq_nil_or_concat' rest with rfl | ⟨l, u, rfl⟩
    · rw [List.length_singleton]
      omega
    · rw [hwithin] at hsub hmem
      have hspan := h t l u hsub
      have ht := (hmem t List.mem_cons_self).1
      have hu := (hmem u (by simp)).2
      have hlt : ((l.length + 2 : ℕ) : K) * g.interval <
          ((2 * g.capacity : ℕ) : K) * g.interval := by
        push_cast
        linarith
      have hlength := Nat.cast_lt.mp (lt_of_mul_lt_mul_right hlt hinterval.le)
      simp only [List.length_cons, List.length_append, List.length_nil]
      omega

/-- As many windows as the requests fill, end to end. -/
theorem length_mul_le (hn : 1 ≤ n) (hx : 0 ≤ x) (hsorted : times.Pairwise (· ≤ ·))
    (hwindow : AtMost n (n * x) times) (hhead : times.head? = some t)
    (hlast : times.getLast? = some u) : times.length * x ≤ u - t + n * x := by
  induction hlength : times.length using Nat.strong_induction_on generalizing times t with
  | _ m ih =>
    subst hlength
    rcases Nat.lt_or_ge n times.length with hlt | hge
    · have hnth := List.getElem?_eq_getElem hlt
      have hle := window_le hsorted hwindow hhead hnth
      have hdrop := List.drop_sublist n times
      have hrest := ih (times.drop n).length (by rw [List.length_drop]; omega)
        (hsorted.sublist hdrop) (hwindow.sublist hdrop) (by rw [List.head?_drop, hnth])
        (by rw [List.getLast?_drop, if_neg (by omega), hlast]) rfl
      have hsum : ((times.drop n).length : K) + n = times.length := by
        rw [List.length_drop, ← Nat.cast_add, Nat.sub_add_cancel hlt.le]
      rw [← hsum]
      linarith
    · have hle := head_le_last hsorted hhead hlast
      have hmul := mul_le_mul_of_nonneg_right (Nat.cast_le (α := K).mpr hge) hx
      linarith

/-- **Nothing is refused within the budget.** -/
theorem accepted_eq_self_aux (hinterval : 0 ≤ g.interval) (hcapacity : 1 ≤ g.capacity)
    (hsorted : (past ++ times).Pairwise (· ≤ ·))
    (hwindow : AtMost g.capacity (g.capacity * g.interval) (past ++ times))
    (htracks : g.Tracks past arrival) : g.accepted arrival times = times := by
  induction times generalizing past arrival with
  | nil => rfl
  | cons t times ih =>
    have hconforms : g.conforms arrival t = true := by
      rw [conforms, Option.all_eq_true]
      intro x hx
      obtain ⟨u, l, hl, rfl⟩ := htracks.attained x hx
      have hsub : (u :: (l ++ [t])).Sublist (past ++ t :: times) :=
        (hl.append_right [t]).trans (((List.nil_sublist times).cons_cons t).append_left past)
      have hspan := length_mul_le hcapacity hinterval (hsorted.sublist hsub) (hwindow.sublist hsub)
        rfl (by rw [← List.cons_append, List.getLast?_concat])
      rw [List.length_cons, List.length_append, List.length_singleton] at hspan
      push_cast at hspan
      exact decide_eq_true (by linarith)
    rw [accepted, if_pos hconforms]
    rw [List.append_cons] at hsorted hwindow
    rw [ih hsorted hwindow (htracks.accept hinterval t)]

/-! ### Two bursts -/

theorem atMost_bursts : AtMost n width (bursts n width) := by
  intro a
  rw [within, bursts, List.filter_append, List.length_append, List.filter_replicate,
    List.filter_replicate]
  split
  · next hfirst =>
    have hsecond : ¬ decide (a ≤ width ∧ width < a + width) = true := by
      simp only [decide_eq_true_eq] at hfirst ⊢
      intro hsecond
      linarith [hfirst.1, hsecond.2]
    rw [if_neg hsecond, List.length_nil, List.length_replicate, add_zero]
  · rw [List.length_nil, zero_add]
    split
    · rw [List.length_replicate]
    · exact Nat.zero_le _

/-- Who accepts both regains the capacity in a window. -/
theorem Spaced.of_bursts (h : g.Spaced (bursts g.capacity width)) (hcapacity : 1 ≤ g.capacity) :
    g.capacity * g.interval ≤ width := by
  obtain ⟨k, hk⟩ := Nat.exists_eq_add_of_le' hcapacity
  have hbursts : bursts g.capacity width =
      0 :: ((List.replicate k 0 ++ List.replicate k width) ++ [width]) := by
    rw [hk, bursts, List.replicate_succ, List.replicate_succ', List.cons_append, List.append_assoc]
  have hspan := h 0 (List.replicate k 0 ++ List.replicate k width) width (by rw [hbursts])
  rw [List.length_append, List.length_replicate, List.length_replicate] at hspan
  rw [hk] at hspan ⊢
  push_cast at hspan ⊢
  linarith

/-- **The budget of a window is honoured exactly if the capacity lasts for it.** -/
theorem honours_iff (g : Gcra K) (hinterval : 0 < g.interval) (hcapacity : 1 ≤ g.capacity)
    (hwidth : 0 < width)
    (hlasts : width ≤ g.capacity * g.interval) :
    g.Honours g.capacity width ↔ g.capacity * g.interval ≤ width := by
  constructor
  · intro h
    have haccepted := h.refuses_none _ (sorted_bursts hwidth.le) atMost_bursts
    have hspaced : g.Spaced (g.accepted none (bursts g.capacity width)) :=
      accepted_spaced hinterval.le
    rw [haccepted] at hspaced
    exact hspaced.of_bursts hcapacity
  · intro hle
    refine ⟨fun times hsorted hwindow => ?_, fun times _ => ?_⟩
    · have hwindow := hwindow.narrow hle
      rw [← List.nil_append times] at hsorted hwindow
      exact accepted_eq_self_aux hinterval.le hcapacity hsorted hwindow tracks_nil
    · exact (accepted_spaced hinterval.le).atMost hinterval hcapacity hlasts

end Gcra
