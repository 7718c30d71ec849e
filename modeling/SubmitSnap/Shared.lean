import SubmitSnap.Interleave.Script
import SubmitSnap.Time.Checked

/-!
# Shared: identifiers, time, text, configuration

What every module of the service takes for granted. Identifiers and opaque tokens are numbers:
the code never looks inside one, and what it counts on is only that two generated ones differ.
A timestamp is a number of microseconds, the resolution of the database's `timestamptz`.

`Platform` collects the third-party functions the model does not open: Argon2 and the Unicode case
mapping, the email and date parsers, the doubles nearest to numbers, the check of an expiry, two
ways of printing, and what the object store does about a write it cannot finish. Nothing is
assumed of them here.

A deadline is computed with the limits of the types it goes through. Where they are exceeded the
code panics, which ends the request like an error nobody handles.

## Numbers for identifiers

That an identifier is a number has no meaning beyond equality: no operation of the model adds or
compares two of them, but for the keyset order of the export, which is by time first and by
identifier only among equals. A token is kept apart from its hash, since the database only ever
sees the second, and what a stolen row is worth depends on it.
-/

namespace SubmitSnap

open Interleave
open Checked (DateTime TimeDelta)

/-- `uuid::Uuid`, and the keys a database sequence hands out. -/
abbrev Uuid : Type := ℕ

/-- `chrono::DateTime<Utc>`, in microseconds. -/
abbrev Timestamp : Type := ℕ

/-- `Duration::seconds`, and the database's `n * INTERVAL '1 second'`. -/
def seconds (n : ℕ) : ℕ := n * 1000000

/-- The largest `i32`. -/
def i32Max : ℕ := 2 ^ 31 - 1

/-! ### Deadlines -/

/-- `i64::try_from(seconds).unwrap_or(i64::MAX)`. -/
def to_i64 (seconds : ℕ) : ℕ := if seconds ≤ Checked.i64Max then seconds else Checked.i64Max

/-- The deadline so many seconds from now; `none` if the program panics, since there is no such span
or no such moment. -/
def expires_in (now : DateTime) (seconds : ℕ) : Option DateTime := do
  now.add (← TimeDelta.seconds (to_i64 seconds))

variable {now t : DateTime} {n : ℕ}

/-- A number of seconds that is a span is not cut off. -/
theorem to_i64_eq (h : (to_i64 n : ℤ) * Checked.second ≤ (Checked.i64Max : ℤ) * 1000000) :
    to_i64 n = n := by
  by_cases hn : n ≤ Checked.i64Max
  · exact if_pos hn
  · have hmax : to_i64 n = Checked.i64Max := if_neg hn
    rw [hmax] at h
    exact absurd h (by decide)

/-- A deadline that is a moment is in reach of all types on the way to it. -/
theorem expires_in_eq_some_iff :
    expires_in now n = some t ↔ t.nanos = now.nanos + n * Checked.second := by
  have hlow := now.ge
  have hhigh := t.lt
  simp only [Checked.second] at hlow hhigh
  have hbind : expires_in now n = some t ↔
      ∃ d : TimeDelta, d.nanos = to_i64 n * Checked.second ∧ t.nanos = now.nanos + d.nanos := by
    unfold expires_in
    rw [Option.bind_eq_bind, Option.bind_eq_some_iff]
    simp only [TimeDelta.seconds_eq_some_iff, DateTime.add_eq_some_iff]
  rw [hbind]
  constructor
  · rintro ⟨d, hd, ht⟩
    have hle := d.le
    rw [hd] at hle
    rw [ht, hd, to_i64_eq hle]
  · intro ht
    simp only [Checked.second] at ht
    have hto : to_i64 n = n := if_pos (by simp only [Checked.i64Max]; omega)
    have hle : (n : ℤ) * Checked.second ≤ (Checked.i64Max : ℤ) * 1000000 := by
      simp only [Checked.i64Max, Checked.second]
      omega
    have hge : -((Checked.i64Max : ℤ) * 1000000) ≤ n * Checked.second := by
      simp only [Checked.i64Max, Checked.second]
      omega
    exact ⟨⟨n * Checked.second, hle, hge⟩, by rw [hto], ht⟩

/-- The same at the resolution of the database: the clock is read, and the deadline is stored. -/
@[irreducible] def deadline (now : Timestamp) (n : ℕ) : Option Timestamp := do
  let expires_at ← expires_in (← DateTime.of (now * 1000)) n
  return (expires_at.nanos / 1000).toNat

/-- A deadline is as far away as was asked for, or there is none. -/
theorem deadline_eq {now t : Timestamp} {n : ℕ} (h : deadline now n = some t) :
    t = now + seconds n := by
  unfold deadline at h
  simp only [Option.bind_eq_bind, Option.bind_eq_some_iff, DateTime.of_eq_some_iff,
    expires_in_eq_some_iff, Checked.second] at h
  obtain ⟨u, hu, v, hv, h⟩ := h
  have ht : (v.nanos / 1000).toNat = t := Option.some.inj h
  have hv' : v.nanos / 1000 = ((now + n * 1000000 : ℕ) : ℤ) := by
    push_cast
    omega
  rw [← ht, hv', seconds, Int.toNat_natCast]

/-- The end of an access token issued at a Unix time: `now.saturating_add(self.ttl_seconds)`. -/
def access_exp (timestamp : ℤ) (ttl_seconds : ℕ) : ℤ :=
  min (timestamp + to_i64 ttl_seconds) Checked.i64Max

/-- `DateTime::timestamp`: the Unix time, which counts whole seconds. -/
def unix_time (now : Timestamp) : ℕ := now / 1000000

/-- A refresh token or the token of a single-use link, as its holder knows it. -/
structure SecretToken where
  id : ℕ
  deriving DecidableEq, Repr

/-- What the database keeps of a token. Distinct tokens have distinct hashes: the code relies on
SHA-256 being free of collisions, and so does the model. -/
structure TokenHash where
  of : SecretToken
  deriving DecidableEq, Repr

def hash_secret_token (token : SecretToken) : TokenHash := ⟨token⟩

/-! ### Failures -/

/-- `sqlx::Error`, and the errors of the other stores, as far as the code tells them apart. -/
inductive Failure where
  /-- A unique index refused the row. -/
  | unique (constraint : String)
  /-- A foreign key has nothing to refer to. -/
  | foreign_key (constraint : String)
  /-- A `CHECK` constraint refused the row. -/
  | check (constraint : String)
  /-- `RAISE EXCEPTION … USING ERRCODE`. -/
  | raised (code message : String)
  /-- `fetch_one` found no row. -/
  | row_not_found
  /-- Anything else: a lost connection, a timeout, an unreachable service. -/
  | unavailable
  /-- No failure of a statement: the code has panicked, and the request ends there. -/
  | panicked
  deriving DecidableEq, Repr

/-! ### Text -/

/-- `char::is_whitespace`: the Unicode `White_Space` property. -/
def is_whitespace (c : Char) : Bool :=
  let n := c.toNat
  (9 ≤ n && n ≤ 13) || n == 0x20 || n == 0x85 || n == 0xA0 || n == 0x1680 ||
    (0x2000 ≤ n && n ≤ 0x200A) || n == 0x2028 || n == 0x2029 || n == 0x202F || n == 0x205F ||
    n == 0x3000

/-- `str::trim`. -/
def trim (s : String) : String :=
  String.ofList (((s.toList.dropWhile is_whitespace).reverse.dropWhile is_whitespace).reverse)

/-- `str::starts_with`. -/
def starts_with (s pre : String) : Bool := pre.toList.isPrefixOf s.toList

/-- A number in JSON, as the database keeps it: its value, and the decimal places it is written
with, by which `1` and `1.0` differ. -/
structure Number where
  value : ℚ
  scale : ℕ
  deriving DecidableEq, Repr

/-- The third-party functions the service calls. -/
structure Platform where
  /-- `char::to_lowercase`. -/
  to_lowercase : Char → List Char
  /-- `PasswordHasher::hash` with the given salt. -/
  argon2_hash : String → ℕ → String
  /-- `PasswordHasher::verify`. -/
  argon2_verify : String → String → Bool
  /-- `PasswordHasher::needs_rehash`. -/
  needs_rehash : String → Bool
  /-- `validator::ValidateEmail`. -/
  validate_email : String → Bool
  /-- `NaiveDate::parse_from_str(_, "%Y-%m-%d").is_ok()`. -/
  is_date : String → Bool
  /-- `{:?}` of a string. -/
  debug_str : String → String
  /-- `Number::as_f64`: the double nearest to a number. -/
  as_f64 : ℚ → ℚ
  /-- `{}` of a bound. -/
  display_number : ℚ → String
  /-- `{}` of a number in JSON. -/
  json_number : Number → String
  /-- `{:#}` of an error. -/
  display_failure : Failure → String
  /-- `{}` of an identifier. -/
  display_uuid : Uuid → String
  /-- `DateTime::to_rfc3339`. -/
  to_rfc3339 : Timestamp → String
  /-- A moment in JSON. -/
  json_time : Timestamp → String
  /-- Whether `jsonwebtoken::decode` takes a token with this `exp` at this Unix time, with this
  leeway. -/
  is_current : (exp now : ℤ) → (leeway : ℕ) → Bool
  /-- Whether `WriteMultipart::finish` gives a write up by itself also when the flush of a part has
  failed. That it does when the completion has failed is not in question. -/
  aborts_failed_flush : Bool

/-- `str::to_lowercase`. -/
def Platform.lower (P : Platform) (s : String) : String :=
  String.ofList (s.toList.flatMap P.to_lowercase)

/-! ### Configuration -/

/-- The part of `AppConfig` the modelled operations read. `AppConfig::validate` requires every
field but the first to be positive. -/
structure AppConfig where
  require_email_verification : Bool
  max_failed_login_attempts : ℕ
  account_lock_duration_seconds : ℕ
  refresh_token_ttl_seconds : ℕ
  access_token_ttl_seconds : ℕ
  password_reset_ttl_seconds : ℕ
  email_verification_ttl_seconds : ℕ
  upload_max_bytes : ℕ
  upload_ttl_hours : ℕ
  /-- Whether an object storage is configured. -/
  storage_enabled : Bool
  outbox_batch_size : ℕ
  webhook_batch_size : ℕ
  /-- Whether an endpoint may be on the same host or in a private network. -/
  webhook_allow_private_targets : Bool

/-- One running instance: its configuration and the libraries it is linked with. -/
structure Deployment where
  config : AppConfig
  platform : Platform

/-! ### A deployment to compute with -/

/-- A platform for ASCII texts. A password hash shows its salt, as a row of `*`, and the password;
a hash without a salt is outdated. -/
def Platform.sample : Platform where
  to_lowercase c := [c.toLower]
  argon2_hash password salt :=
    String.ofList (List.replicate (salt + 1) '*' ++ '$' :: password.toList)
  argon2_verify password hash :=
    (hash.toList.dropWhile (· == '*')).drop 1 == password.toList
  needs_rehash hash := hash.toList.head? != some '*'
  validate_email email := '@' ∈ email.toList
  is_date s := s.length == 10
  debug_str s := "\"" ++ s ++ "\""
  as_f64 n := n
  display_number n := toString n
  json_number n := toString n.value
  display_failure _ := "unavailable"
  display_uuid id := toString id
  to_rfc3339 at_ := toString at_
  json_time at_ := toString at_
  is_current exp now leeway := now - leeway ≤ exp
  aborts_failed_flush := false

/-- The configuration the repository ships as its example, with email verification required. -/
def AppConfig.sample : AppConfig where
  require_email_verification := true
  max_failed_login_attempts := 5
  account_lock_duration_seconds := 900
  refresh_token_ttl_seconds := 2592000
  access_token_ttl_seconds := 900
  password_reset_ttl_seconds := 3600
  email_verification_ttl_seconds := 86400
  upload_max_bytes := 26214400
  upload_ttl_hours := 24
  storage_enabled := true
  outbox_batch_size := 20
  webhook_batch_size := 20
  webhook_allow_private_targets := false

def Deployment.sample : Deployment := ⟨.sample, .sample⟩

end SubmitSnap
