import SubmitSnap.Interleave.RelyGuarantee
import SubmitSnap.Interleave.Fresh
import SubmitSnap.Interleave.Alone
import SubmitSnap.Interleave.Serial
import SubmitSnap.Interleave.Registry
import SubmitSnap.Interleave.Observer
import SubmitSnap.Request
import SubmitSnap.Frames
import SubmitSnap.Footprints
import SubmitSnap.Constraints
import SubmitSnap.Scopes
import SubmitSnap.Identity.PasswordHash
import SubmitSnap.Identity.OneTimeTokens
import SubmitSnap.Identity.ResetPassword
import SubmitSnap.Identity.Lockout
import SubmitSnap.Identity.FailureSeries
import SubmitSnap.Identity.RoleChanges
import SubmitSnap.Identity.Search
import SubmitSnap.Session.RefreshTokens
import SubmitSnap.Organization.Owners
import SubmitSnap.Organization.Entitlement
import SubmitSnap.Form.SchemaVersion
import SubmitSnap.Form.Answers
import SubmitSnap.Form.Submittable
import SubmitSnap.Form.Payload
import SubmitSnap.Form.Definition
import SubmitSnap.Form.Updates
import SubmitSnap.Form.Submit
import SubmitSnap.Form.Sound
import SubmitSnap.Form.Storable
import SubmitSnap.Form.Honeypot
import SubmitSnap.Form.Export
import SubmitSnap.Form.JsonExport
import SubmitSnap.Form.ExportColumns
import SubmitSnap.Form.Disposition
import SubmitSnap.Form.Inbox
import SubmitSnap.Form.Streaming
import SubmitSnap.Form.LeftBehind
import SubmitSnap.Form.Orphans
import SubmitSnap.Form.Claiming
import SubmitSnap.Form.SubmissionFiles
import SubmitSnap.Form.ClaimedFiles
import SubmitSnap.Tenant.Thing
import SubmitSnap.Tenant.Told
import SubmitSnap.Tenant.Register
import SubmitSnap.Tenant.Confined
import SubmitSnap.Tenant.Handles
import SubmitSnap.Tenant.Standing
import SubmitSnap.Auth.Admitted
import SubmitSnap.Session.SignedOut
import SubmitSnap.Form.Contents
import SubmitSnap.Form.Provenance
import SubmitSnap.Form.Download
import SubmitSnap.Webhook.Delivered
import SubmitSnap.Webhook.Attempts
import SubmitSnap.Webhook.SecondChance
import SubmitSnap.Webhook.Disabled
import SubmitSnap.Webhook.AtLeastOnce
import SubmitSnap.Webhook.MailedOnce
import SubmitSnap.Webhook.Notified
import SubmitSnap.Webhook.Contacted
import SubmitSnap.Rate.Limiters
import SubmitSnap.Time.Lifetimes
import SubmitSnap.Email.NothingLost
import SubmitSnap.Email.Render
