import SubmitSnap.Config
import SubmitSnap.Rate.Gcra

/-!
# The budgets of the configuration

Each limiter is built from a number of requests that the configuration allows in a minute or in an
hour. The two kinds are built differently: a limiter by the minute regains its whole budget in a
minute, a limiter by the hour a single request in an hour.

The library that implements the limiters keeps its times as nanoseconds; here they are rationals,
so that `60 / n` seconds is what it says. The theorem is about the algorithm with exact intervals.

## The argument

A limiter by the minute has the capacity `n` and the interval `60 / n`, so it regains what it has
in a window; a limiter by the hour has the capacity `n` and the interval of an hour. By
`Gcra.honours_iff` the first honours its budget always, and the second only if `n` is 1.

## Main results

* `budgetHonoured_iff` — which limiters honour their budget.
-/

namespace SubmitSnap

/-- A governor quota: how many requests at once, and how many seconds until one is regained. -/
structure Quota where
  max_burst : ℕ
  replenish_1_per : ℚ

namespace Quota

def per_minute (max_burst : ℕ) : Quota := ⟨max_burst, 60 / max_burst⟩

/-- No period is no quota. -/
def with_period (replenish_1_per : ℚ) : Option Quota :=
  if replenish_1_per = 0 then none else some ⟨1, replenish_1_per⟩

def allow_burst (quota : Quota) (max_burst : ℕ) : Quota := { quota with max_burst := max_burst }

end Quota

/-- `RateLimiter::keyed`, for one key. -/
def RateLimiter.keyed (quota : Quota) : Gcra ℚ := ⟨quota.max_burst, quota.replenish_1_per⟩

/-- `NonZeroU32::new`, or its least value. -/
def non_zero (limit : ℕ) : ℕ := if limit = 0 then 1 else limit

def per_minute (limit : ℕ) : Gcra ℚ := RateLimiter.keyed (.per_minute (non_zero limit))

def per_hour (limit : ℕ) : Gcra ℚ :=
  let quota := ((Quota.with_period (60 * 60)).getD (.per_minute (non_zero limit))).allow_burst
    (non_zero limit)
  RateLimiter.keyed quota

structure RateLimiters where
  global : Gcra ℚ
  login : Gcra ℚ
  register : Gcra ℚ
  sensitive : Gcra ℚ
  submissions : Gcra ℚ
  submissions_per_form : Gcra ℚ

def RateLimiters.from_config (config : ServerConfig) : RateLimiters where
  global := per_minute config.rate_limit_per_minute
  login := per_minute config.login_rate_limit_per_minute
  register := per_hour config.register_rate_limit_per_hour
  sensitive := per_hour config.sensitive_rate_limit_per_hour
  submissions := per_minute config.submission_rate_limit_per_minute
  submissions_per_form := RateLimiter.keyed
    (.per_minute (non_zero config.submission_per_form_rate_limit_per_minute))

/-! ### Budgets -/

inductive Limiter where
  | global
  | login
  | register
  | sensitive
  | submissions
  | submissions_per_form
  deriving DecidableEq, Repr

inductive Window where
  | minute
  | hour
  deriving DecidableEq, Repr

def Window.seconds : Window → ℚ
  | .minute => 60
  | .hour => 3600

namespace Limiter

def get (limiters : RateLimiters) : Limiter → Gcra ℚ
  | global => limiters.global
  | login => limiters.login
  | register => limiters.register
  | sensitive => limiters.sensitive
  | submissions => limiters.submissions
  | submissions_per_form => limiters.submissions_per_form

/-- What the name of the setting says: so many requests, -/
def budget (config : ServerConfig) : Limiter → ℕ
  | global => config.rate_limit_per_minute
  | login => config.login_rate_limit_per_minute
  | register => config.register_rate_limit_per_hour
  | sensitive => config.sensitive_rate_limit_per_hour
  | submissions => config.submission_rate_limit_per_minute
  | submissions_per_form => config.submission_per_form_rate_limit_per_minute

/-- in such a window. -/
def window : Limiter → Window
  | register | sensitive => .hour
  | global | login | submissions | submissions_per_form => .minute

end Limiter

/-- The limiter honours the budget that the configuration names. -/
def BudgetHonoured (config : ServerConfig) (limiter : Limiter) : Prop :=
  (limiter.get (.from_config config)).Honours (limiter.budget config) limiter.window.seconds

variable {config : ServerConfig} {limiter : Limiter} {n : ℕ}

theorem non_zero_of_pos (h : 0 < n) : non_zero n = n := if_neg h.ne'

theorem per_minute_eq (h : 0 < n) : per_minute n = ⟨n, 60 / n⟩ := by
  rw [per_minute, non_zero_of_pos h]
  rfl

theorem per_hour_eq (h : 0 < n) : per_hour n = ⟨n, 60 * 60⟩ := by
  have hperiod : Quota.with_period (60 * 60) = some ⟨1, 60 * 60⟩ := if_neg (by norm_num)
  rw [per_hour, non_zero_of_pos h, hperiod]
  rfl

/-- A limiter by the minute regains its capacity in a minute. -/
theorem honours_per_minute (h : 0 < n) : (per_minute n).Honours n Window.minute.seconds := by
  have hn : (0 : ℚ) < n := Nat.cast_pos.mpr h
  have hlasts : (n : ℚ) * (60 / n) = Window.minute.seconds := mul_div_cancel₀ 60 hn.ne'
  have hwidth : 0 < Window.minute.seconds := by norm_num [Window.seconds]
  let limiter : Gcra ℚ := ⟨n, 60 / n⟩
  have hinterval : 0 < limiter.interval := div_pos (by norm_num) hn
  rw [per_minute_eq h]
  exact (limiter.honours_iff hinterval h hwidth hlasts.ge).mpr hlasts.le

/-- A limiter by the hour regains a single request in an hour. -/
theorem honours_per_hour (h : 0 < n) : (per_hour n).Honours n Window.hour.seconds ↔ n = 1 := by
  have hn : (1 : ℚ) ≤ n := Nat.one_le_cast.mpr h
  have hlasts : Window.hour.seconds ≤ (n : ℚ) * (60 * 60) := by
    rw [Window.seconds]
    linarith
  have hone : (n : ℚ) * (60 * 60) ≤ Window.hour.seconds ↔ n = 1 := by
    rw [Window.seconds]
    constructor
    · intro hle
      have hcast : (n : ℚ) ≤ 1 := by linarith
      exact le_antisymm (Nat.cast_le_one.mp hcast) h
    · rintro rfl
      norm_num
  rw [per_hour_eq h, ← hone]
  exact Gcra.honours_iff _ (by norm_num) h (by norm_num [Window.seconds]) hlasts

/-- Of a valid configuration no budget is empty. -/
theorem budget_pos (h : config.validate = .ok ()) (limiter : Limiter) :
    0 < limiter.budget config := by
  cases limiter with
  | global =>
    exact ServerConfig.positive_of_validate h "RATE_LIMIT_PER_MINUTE"
      (by simp [ServerConfig.checks, Limiter.budget])
  | login =>
    exact ServerConfig.positive_of_validate h "LOGIN_RATE_LIMIT_PER_MINUTE"
      (by simp [ServerConfig.checks, Limiter.budget])
  | register =>
    exact ServerConfig.positive_of_validate h "REGISTER_RATE_LIMIT_PER_HOUR"
      (by simp [ServerConfig.checks, Limiter.budget])
  | sensitive =>
    exact ServerConfig.positive_of_validate h "SENSITIVE_RATE_LIMIT_PER_HOUR"
      (by simp [ServerConfig.checks, Limiter.budget])
  | submissions =>
    exact ServerConfig.positive_of_validate h "SUBMISSION_RATE_LIMIT_PER_MINUTE"
      (by simp [ServerConfig.checks, Limiter.budget])
  | submissions_per_form =>
    exact ServerConfig.positive_of_validate h "SUBMISSION_PER_FORM_RATE_LIMIT_PER_MINUTE"
      (by simp [ServerConfig.checks, Limiter.budget])

/-- **A budget by the minute is honoured; a budget by the hour only if it is a single request.** -/
theorem budgetHonoured_iff (h : config.validate = .ok ()) (limiter : Limiter) :
    BudgetHonoured config limiter ↔ limiter.window = .minute ∨ limiter.budget config = 1 := by
  have hpos := budget_pos h limiter
  cases limiter with
  | global | login | submissions | submissions_per_form =>
    exact iff_of_true (honours_per_minute hpos) (.inl rfl)
  | register | sensitive =>
    exact (honours_per_hour hpos).trans (or_iff_right nofun).symm

/-- **The budgets by the hour are not honoured.** Five registrations at once, and five an hour
later: the second of these is refused. -/
theorem not_budgetHonoured : ¬ ∀ config limiter, config.validate = .ok () →
    BudgetHonoured config limiter := by
  intro h
  have hregister := h .sample .register (by decide +kernel)
  have haccepted := hregister.refuses_none _ (Gcra.sorted_bursts (by decide +kernel))
    Gcra.atMost_bursts
  revert haccepted
  decide +kernel

theorem budgetHonoured_login : BudgetHonoured .sample .login :=
  (budgetHonoured_iff (by decide +kernel) .login).mpr (.inl rfl)

end SubmitSnap
