import SubmitSnap.Config
import SubmitSnap.Time.Checked

/-!
# The lifetimes of the configuration

Every lifetime is a number of seconds or hours that is only checked for being positive. On its way
to a moment it goes through types that hold less and less: a number of 64 bits, a span, a moment.
The code of the other modules goes through the same types; here the limits themselves are the
subject.

## The argument

Each of the computations is a chain of checked operations, and which of them fails first does not
matter in the end: they get stricter on the way, so all succeed if the last one does. That is why
the condition only speaks of moments. For the reaper there is a second way out, as a lifetime that
is no span is taken for zero; this keeps the program running and takes every upload for abandoned.

## Main results

* `lifetimesSound_iff` — which lifetimes are what they say: those whose ends are moments.
-/

namespace SubmitSnap.Lifetimes

open Checked

/-! ### The code -/

/-- The seconds an upload may be unclaimed, as `FormService::new` computes them; `none` if the
program stops. -/
def upload_ttl (overflow_checks : Bool) (upload_ttl_hours : ℕ) : Option ℕ := do
  mulU64 overflow_checks (← mulU64 overflow_checks upload_ttl_hours 60) 60

/-- What `reap_abandoned_uploads` takes for the latest moment of an abandoned upload; `none` if the
program stops. -/
def cutoff (overflow_checks : Bool) (now : DateTime) (upload_ttl_hours : ℕ) : Option DateTime := do
  let ttl ← upload_ttl overflow_checks upload_ttl_hours
  now.sub ((TimeDelta.seconds ttl).getD .zero)

/-! ### What lifetimes are for -/

/-- The lifetimes that are numbers of seconds. -/
def seconds (config : AppConfig) : List ℕ := [
  config.access_token_ttl_seconds,
  config.refresh_token_ttl_seconds,
  config.email_verification_ttl_seconds,
  config.password_reset_ttl_seconds,
  config.account_lock_duration_seconds]

/-- The nanoseconds an upload may be unclaimed. -/
def unclaimed (config : AppConfig) : ℤ := config.upload_ttl_hours * 3600 * second

/-- No computation of a lifetime overflows, stops the program or comes to nothing. -/
structure LifetimesSound (overflow_checks : Bool) (config : AppConfig) (now : DateTime) : Prop where
  deadlines : ∀ n ∈ seconds config, ∃ t, expires_in now n = some t ∧ now < t
  access_token : now.nanos / second <
    access_exp (now.nanos / second) config.access_token_ttl_seconds
  unwrapped : config.upload_ttl_hours * 60 * 60 < 2 ^ 64
  reaper : ∃ t, cutoff overflow_checks now config.upload_ttl_hours = some t ∧ t < now ∧
    (t.nanos = now.nanos - unclaimed config ∨
      DateTime.of (now.nanos - unclaimed config) = none ∧ ∀ created_at, t ≤ created_at)
  kept : ∀ t, cutoff overflow_checks now config.upload_ttl_hours = some t →
    ∀ created_at : DateTime, now.nanos - unclaimed config < created_at.nanos → ¬ created_at < t

/-- The ends of all lifetimes are moments. -/
def Representable (config : AppConfig) (now : DateTime) : Prop :=
  (∀ n ∈ seconds config, (DateTime.of (now.nanos + n * second)).isSome = true) ∧
    (DateTime.of (now.nanos - unclaimed config)).isSome = true

variable {overflow_checks : Bool} {config : ServerConfig} {now t : DateTime} {n : ℕ}

/-! ### Deadlines -/

/-- An access token does not expire as it is issued. -/
theorem lt_access_exp (hn : 0 < n) : now.nanos / second < access_exp (now.nanos / second) n := by
  have hhigh := now.lt
  have hto : 0 < to_i64 n := by
    unfold to_i64
    split
    · exact hn
    · decide
  simp only [access_exp, Checked.i64Max, second] at hhigh ⊢
  exact lt_min (by omega) (by omega)

/-! ### The reaper -/

theorem upload_ttl_eq (h : n * 60 * 60 < 2 ^ 64) :
    upload_ttl overflow_checks n = some (n * 60 * 60) := by
  have hhours : mulU64 overflow_checks n 60 = some (n * 60) := if_pos (by omega)
  rw [upload_ttl, hhours]
  exact if_pos h

/-- A lifetime that is no span is taken for none at all. -/
theorem cutoff_eq_some_iff (h : n * 60 * 60 < 2 ^ 64) :
    cutoff overflow_checks now n = some t ↔
      t.nanos = now.nanos - n * 3600 * second ∧ n * 3600 * second ≤ (Checked.i64Max : ℤ) * 1000000 ∨
      t.nanos = now.nanos ∧ (Checked.i64Max : ℤ) * 1000000 < n * 3600 * second := by
  have hhours : ((n * 60 * 60 : ℕ) : ℤ) * second = n * 3600 * second := by
    push_cast
    ring
  have hcutoff : cutoff overflow_checks now n =
      now.sub ((TimeDelta.seconds (n * 60 * 60)).getD .zero) := by
    rw [cutoff, upload_ttl_eq h]
    rfl
  rw [hcutoff, DateTime.sub_eq_some_iff]
  cases hspan : TimeDelta.seconds (n * 60 * 60) with
  | some d =>
    have hd := TimeDelta.seconds_eq_some_iff.mp hspan
    have hle := d.le
    rw [hhours] at hd
    rw [Option.getD_some, hd]
    rw [hd] at hle
    constructor
    · exact fun ht => .inl ⟨ht, hle⟩
    · rintro (⟨ht, -⟩ | ⟨-, hgt⟩)
      · exact ht
      · exact absurd hle (not_le.mpr hgt)
  | none =>
    have hgt := TimeDelta.seconds_eq_none_iff.mp hspan
    rw [hhours] at hgt
    have hzero : (Option.getD none TimeDelta.zero).nanos = 0 := rfl
    rw [hzero, sub_zero]
    constructor
    · exact fun ht => .inr ⟨ht, hgt⟩
    · rintro (⟨-, hle⟩ | ⟨ht, -⟩)
      · exact absurd hle (not_le.mpr hgt)
      · exact ht

/-! ### Sound lifetimes -/

/-- Of a valid configuration no lifetime is empty. -/
theorem pos_of_validate (h : config.validate = .ok ()) :
    (∀ n ∈ seconds config.toAppConfig, 0 < n) ∧ 0 < config.upload_ttl_hours := by
  have haccess : 0 < config.access_token_ttl_seconds :=
    ServerConfig.positive_of_validate h "ACCESS_TOKEN_TTL_SECONDS" (by simp [ServerConfig.checks])
  have hrefresh : 0 < config.refresh_token_ttl_seconds :=
    ServerConfig.positive_of_validate h "REFRESH_TOKEN_TTL_SECONDS" (by simp [ServerConfig.checks])
  have hverification : 0 < config.email_verification_ttl_seconds :=
    ServerConfig.positive_of_validate h "EMAIL_VERIFICATION_TTL_SECONDS"
      (by simp [ServerConfig.checks])
  have hreset : 0 < config.password_reset_ttl_seconds :=
    ServerConfig.positive_of_validate h "PASSWORD_RESET_TTL_SECONDS" (by simp [ServerConfig.checks])
  have hlock : 0 < config.account_lock_duration_seconds :=
    ServerConfig.positive_of_validate h "ACCOUNT_LOCK_DURATION_SECONDS"
      (by simp [ServerConfig.checks])
  have hupload : 0 < config.upload_ttl_hours :=
    ServerConfig.positive_of_validate h "UPLOAD_TTL_HOURS" (by simp [ServerConfig.checks])
  refine ⟨?_, hupload⟩
  simp only [seconds, List.forall_mem_cons]
  exact ⟨haccess, hrefresh, hverification, hreset, hlock, nofun⟩

theorem LifetimesSound.representable (h : LifetimesSound overflow_checks config.toAppConfig now) :
    Representable config.toAppConfig now := by
  refine ⟨fun n hn => ?_, ?_⟩
  · obtain ⟨t, ht, -⟩ := h.deadlines n hn
    exact Option.isSome_iff_exists.mpr
      ⟨t, DateTime.of_eq_some_iff.mpr (expires_in_eq_some_iff.mp ht)⟩
  · obtain ⟨t, ht, hlt, -⟩ := h.reaper
    rcases (cutoff_eq_some_iff h.unwrapped).mp ht with ⟨ht, -⟩ | ⟨ht, -⟩
    · exact Option.isSome_iff_exists.mpr ⟨t, DateTime.of_eq_some_iff.mpr ht⟩
    · exact absurd ht hlt.ne

/-- **Lifetimes are sound exactly if their ends are moments.** -/
theorem lifetimesSound_iff (h : config.validate = .ok ()) :
    LifetimesSound overflow_checks config.toAppConfig now ↔
      Representable config.toAppConfig now := by
  refine ⟨LifetimesSound.representable, fun ⟨hends, hstart⟩ => ?_⟩
  obtain ⟨hpos, hupload⟩ := pos_of_validate h
  obtain ⟨start, hstart⟩ := Option.isSome_iff_exists.mp hstart
  rw [DateTime.of_eq_some_iff] at hstart
  have hlow := start.ge
  have hhigh := now.lt
  have hunclaimed : unclaimed config.toAppConfig = config.upload_ttl_hours * 3600 * second := rfl
  simp only [hunclaimed, second] at hstart hlow hhigh
  -- From the first moment to the last there are fewer hours than any of the types has room for.
  have hfits : config.upload_ttl_hours * 60 * 60 < 2 ^ 64 := by omega
  have hspan : (config.upload_ttl_hours : ℤ) * 3600 * second ≤ (Checked.i64Max : ℤ) * 1000000 := by
    simp only [Checked.i64Max, second]
    omega
  have hcutoff : cutoff overflow_checks now config.upload_ttl_hours = some start :=
    (cutoff_eq_some_iff hfits).mpr (.inl ⟨hstart, hspan⟩)
  refine ⟨fun n hn => ?_, lt_access_exp (hpos _ (by simp [seconds])), hfits,
    ⟨start, hcutoff, ?_, .inl hstart⟩, fun t ht created_at hyoung hold => ?_⟩
  · obtain ⟨t, ht⟩ := Option.isSome_iff_exists.mp (hends n hn)
    rw [DateTime.of_eq_some_iff] at ht
    have hn := hpos n hn
    refine ⟨t, expires_in_eq_some_iff.mpr ht, ?_⟩
    change now.nanos < t.nanos
    simp only [second] at ht
    omega
  · change start.nanos < now.nanos
    omega
  · obtain rfl := Option.some.inj (hcutoff.symm.trans ht)
    change created_at.nanos < start.nanos at hold
    rw [hunclaimed] at hyoung
    simp only [second] at hyoung
    omega

/-- The first moment of the year 2026. -/
def new_year : DateTime := ⟨1767225600 * second, by decide, by decide⟩

/-- Uploads are to be kept for 342 million years, and no second of it is left. -/
theorem not_lifetimesSound : ¬ ∀ overflow_checks (config : ServerConfig) now,
    config.validate = .ok () → LifetimesSound overflow_checks config.toAppConfig now := by
  intro h
  have hsound := h false
    { ServerConfig.sample with
      toAppConfig := { AppConfig.sample with upload_ttl_hours := 3000000000000 } }
    new_year (by decide +kernel)
  -- The cutoff is now, and an upload of a second ago is before it.
  have hnow : cutoff false new_year 3000000000000 = some new_year := by decide +kernel
  let a_second_ago : DateTime := ⟨1767225599 * second, by decide, by decide⟩
  exact hsound.kept new_year hnow a_second_ago (by decide) (by decide)

theorem lifetimesSound_sample : LifetimesSound false ServerConfig.sample.toAppConfig new_year :=
  (lifetimesSound_iff (by decide +kernel)).mpr (by unfold Representable; decide +kernel)

/-- A link that is valid for all the seconds of a `u64` cannot be made. -/
example : expires_in new_year (2 ^ 64 - 1) = none := by decide +kernel

end SubmitSnap.Lifetimes
