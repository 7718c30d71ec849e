import SubmitSnap.Form.Upload
import SubmitSnap.Webhook.Url

/-!
# The configuration

What `AppConfig::validate` reads, beyond the part of the configuration the modelled operations read,
and what it checks.

The checks are a list, each with the message it contributes, as the code collects all that fail
before it reports them. Most are of one kind (`positive`), which is why so little can go wrong
with a configuration that is accepted, and why a number that is merely too large goes through.
-/

namespace SubmitSnap

/-- The whole of what is validated at startup. -/
structure ServerConfig extends AppConfig where
  jwt_secret : String
  rate_limit_per_minute : ℕ
  login_rate_limit_per_minute : ℕ
  register_rate_limit_per_hour : ℕ
  sensitive_rate_limit_per_hour : ℕ
  submission_rate_limit_per_minute : ℕ
  submission_per_form_rate_limit_per_minute : ℕ
  request_body_limit_bytes : ℕ
  request_timeout_seconds : ℕ
  email_provider : String
  smtp_host : Option String
  smtp_username : Option String
  smtp_password : Option String
  email_from : Option String
  smtp_tls_mode : String
  s3_access_key_id : Option String
  s3_secret_access_key : Option String
  webhook_timeout_seconds : ℕ

/-- Well-known values people copy and then forget to replace. -/
def PLACEHOLDER_SECRET_MARKERS : List String :=
  ["replace-with", "changeme", "change-me", "placeholder", "your-secret", "insecure"]

/-- `str::contains`. -/
def contains_str (s marker : String) : Bool := s.toList.tails.any marker.toList.isPrefixOf

def is_placeholder_secret (secret : String) : Bool :=
  PLACEHOLDER_SECRET_MARKERS.any fun marker => contains_str (to_ascii_lowercase secret) marker

namespace ServerConfig

def uses_smtp (config : ServerConfig) : Bool :=
  eq_ignore_ascii_case (trim config.email_provider).toList "smtp".toList

/-- A setting that has to be positive. -/
def positive (name : String) (value : ℕ) : Bool × String :=
  (value == 0, name ++ " must be greater than zero")

/-- The checks in order, each with what it reports when it strikes. -/
def checks (config : ServerConfig) : List (Bool × String) := [
  (config.jwt_secret.utf8ByteSize < 32, "JWT_SECRET must be at least 32 characters long"),
  (is_placeholder_secret config.jwt_secret,
    "JWT_SECRET is still a placeholder value; generate one with `openssl rand -base64 48` and " ++
      "keep it secret"),
  positive "RATE_LIMIT_PER_MINUTE" config.rate_limit_per_minute,
  positive "LOGIN_RATE_LIMIT_PER_MINUTE" config.login_rate_limit_per_minute,
  positive "REGISTER_RATE_LIMIT_PER_HOUR" config.register_rate_limit_per_hour,
  positive "SENSITIVE_RATE_LIMIT_PER_HOUR" config.sensitive_rate_limit_per_hour,
  positive "SUBMISSION_RATE_LIMIT_PER_MINUTE" config.submission_rate_limit_per_minute,
  positive "SUBMISSION_PER_FORM_RATE_LIMIT_PER_MINUTE"
    config.submission_per_form_rate_limit_per_minute,
  positive "WEBHOOK_TIMEOUT_SECONDS" config.webhook_timeout_seconds,
  positive "ACCESS_TOKEN_TTL_SECONDS" config.access_token_ttl_seconds,
  positive "REFRESH_TOKEN_TTL_SECONDS" config.refresh_token_ttl_seconds,
  positive "EMAIL_VERIFICATION_TTL_SECONDS" config.email_verification_ttl_seconds,
  positive "PASSWORD_RESET_TTL_SECONDS" config.password_reset_ttl_seconds,
  positive "MAX_FAILED_LOGIN_ATTEMPTS" config.max_failed_login_attempts,
  positive "ACCOUNT_LOCK_DURATION_SECONDS" config.account_lock_duration_seconds,
  positive "REQUEST_BODY_LIMIT_BYTES" config.request_body_limit_bytes,
  positive "REQUEST_TIMEOUT_SECONDS" config.request_timeout_seconds,
  (config.refresh_token_ttl_seconds ≤ config.access_token_ttl_seconds,
    "ACCESS_TOKEN_TTL_SECONDS must be shorter than REFRESH_TOKEN_TTL_SECONDS"),
  (config.uses_smtp && config.smtp_host.all String.isEmpty,
    "SMTP_HOST is required when EMAIL_PROVIDER=smtp"),
  (config.uses_smtp && config.email_from.all String.isEmpty,
    "EMAIL_FROM is required when EMAIL_PROVIDER=smtp"),
  (config.uses_smtp && config.smtp_username.isSome != config.smtp_password.isSome,
    "SMTP_USERNAME and SMTP_PASSWORD must be set together"),
  (to_ascii_lowercase (trim config.smtp_tls_mode) ∉ ["starttls", "implicit", "tls", "none"],
    "SMTP_TLS_MODE must be starttls, implicit, or none"),
  (config.s3_access_key_id.isSome != config.s3_secret_access_key.isSome,
    "S3_ACCESS_KEY_ID and S3_SECRET_ACCESS_KEY must be set together"),
  positive "UPLOAD_MAX_BYTES" config.upload_max_bytes,
  positive "UPLOAD_TTL_HOURS" config.upload_ttl_hours]

def invalid (config : ServerConfig) : List String := (config.checks.filter Prod.fst).map Prod.snd

def validate (config : ServerConfig) : Except String Unit :=
  if config.invalid.isEmpty then .ok ()
  else .error ("invalid configuration: " ++ String.intercalate "; " config.invalid)

variable {config : ServerConfig} {check : Bool × String}

/-- Of a valid configuration no check strikes. -/
theorem passes_of_validate (h : config.validate = .ok ()) (hcheck : check ∈ config.checks) :
    check.1 = false := by
  have hinvalid : config.invalid = [] := by
    unfold validate at h
    split at h
    · next hempty => exact List.isEmpty_iff.mp hempty
    · cases h
  have hnone := List.filter_eq_nil_iff.mp (List.map_eq_nil_iff.mp hinvalid) check hcheck
  exact Bool.eq_false_iff.mpr hnone

theorem positive_of_validate (h : config.validate = .ok ()) (name : String) {value : ℕ}
    (hcheck : positive name value ∈ config.checks) : 0 < value :=
  Nat.pos_of_ne_zero (beq_eq_false_iff_ne.mp (passes_of_validate h hcheck))

/-- What the repository ships as its defaults, with a secret. -/
def sample : ServerConfig where
  toAppConfig := .sample
  jwt_secret := "0123456789abcdef0123456789abcdef"
  rate_limit_per_minute := 120
  login_rate_limit_per_minute := 10
  register_rate_limit_per_hour := 5
  sensitive_rate_limit_per_hour := 5
  submission_rate_limit_per_minute := 30
  submission_per_form_rate_limit_per_minute := 120
  request_body_limit_bytes := 65536
  request_timeout_seconds := 15
  email_provider := "disabled"
  smtp_host := none
  smtp_username := none
  smtp_password := none
  email_from := none
  smtp_tls_mode := "starttls"
  s3_access_key_id := none
  s3_secret_access_key := none
  webhook_timeout_seconds := 10

end ServerConfig

end SubmitSnap
