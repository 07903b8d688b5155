import CampusID.Oidc.SingleUse
import CampusID.Oidc.Suppression
import CampusID.Lifecycle.Entitlements
import CampusID.Session.Termination
import CampusID.Broker.Endings
import CampusID.Directory.Accounts
import CampusID.Keys.CrashSafety
import CampusID.Audit.Watching
import CampusID.Saml.Binding
import CampusID.Saml.Replay
import CampusID.Mfa.Impersonation
import CampusID.Audit.Dashboard
import CampusID.Audit.Releases
import CampusID.Audit.Evident
import CampusID.Identity.Authority
import CampusID.Authz.Affiliations
import CampusID.Authz.Order
import CampusID.Authz.Questions
import CampusID.Authz.Deriving
import CampusID.Lifecycle.Replaying
import CampusID.Policy.Reloading
import CampusID.Oidc.Revoking
import CampusID.Scim.Immutable
import CampusID.Scim.Selecting
import CampusID.Identity.Deciding
import CampusID.Saml.Conditions
import CampusID.Scim.IfMatch
import CampusID.Scim.References
import CampusID.Scim.Quoting
import CampusID.Scim.Recognising
import CampusID.Scim.Qualified
import CampusID.Scim.Retrying
import CampusID.Scim.Resending
import CampusID.Audit.Redaction
import CampusID.Oidc.Governed
import CampusID.Policy.Projection
import CampusID.Mfa.WrongCodes
import CampusID.Mfa.Passkeys
import CampusID.Mfa.RecoveryFormat
import CampusID.Oidc.Presented
import CampusID.Oidc.Redirecting
import CampusID.Directory.Expansion
import CampusID.Directory.Filters
import CampusID.Directory.Names
import CampusID.Saml.AuthnRequest
import CampusID.Saml.Metadata
import CampusID.Oidc.Pushed
import CampusID.Rp.Client
