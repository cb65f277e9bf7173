import TokenKeeper.Config.Basic
import TokenKeeper.Text.Quoted
/-!
# Credentials on display

Credentials as a log or an error may show them: every field but the secrets, of which only the
presence is told.
-/
namespace TokenKeeper

/-- What stands in place of a secret. -/
def redacted : String := Text.quoted "[REDACTED]"

/-- The credentials with their secrets withheld. -/
def Credentials.display (c : Credentials) : String :=
  let adminToken :=
    if c.effectiveAdminToken.isSome then "Some(" ++ redacted ++ ")" else "None"
  let fields : List (String × String) := [
    ("auth_url", Text.quoted c.authUrl),
    ("protocol", c.protocol.display),
    ("tenant_name", Text.quoted c.tenantName),
    ("project_name", Text.quoted c.projectName),
    ("username", Text.quoted c.username),
    ("password", redacted),
    ("admin_token", adminToken),
    ("domain_name", Text.quoted c.domainName),
    ("project_domain_name", Text.quoted c.projectDomainName)]
  "Credentials \x7b " ++ ", ".intercalate (fields.map fun f => f.1 ++ ": " ++ f.2) ++ " \x7d"

end TokenKeeper
