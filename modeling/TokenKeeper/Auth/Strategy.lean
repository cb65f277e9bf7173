import TokenKeeper.Config.Basic
import TokenKeeper.Json.Basic
/-!
# Ways to authenticate

The credentials decide the way: a v2 identity service takes an admin token if there is one and a
user's password otherwise, a v3 service takes a password for a project. Each way has its own
request, whose texts are those of the credentials.
-/
namespace TokenKeeper

inductive Strategy where
  | v2Token
  | v2Password
  | v3Password
deriving DecidableEq, Repr

namespace Strategy

/-- The way the credentials call for. -/
def ofCredentials (c : Credentials) : Strategy :=
  match c.protocol with
  | .v2 => if c.effectiveAdminToken.isSome then v2Token else v2Password
  | .v3 => v3Password

def protocol : Strategy → Protocol
  | v2Token | v2Password => .v2
  | v3Password => .v3

/-- The method by which exchanges are counted. -/
def method : Strategy → String
  | v2Token => "token"
  | v2Password | v3Password => "password"

/-- Where requests are sent, below the base url. -/
def suffix : Strategy → String
  | v2Token | v2Password => "tokens"
  | v3Password => "v3/auth/tokens"

open Json in
/-- The request for a token. -/
def request (c : Credentials) : Strategy → Json
  | v2Token =>
    .object [("auth", .object [("token", .object [
      ("id", .string (c.effectiveAdminToken.getD ""))])])]
  | v2Password =>
    .object [("auth", .object [
      ("tenantName", .string c.tenantName),
      ("passwordCredentials", .object [
        ("username", .string c.username), ("password", .string c.password)])])]
  | v3Password =>
    .object [("auth", .object [
      ("identity", .object [
        ("methods", .array [.string "password"]),
        ("password", .object [("user", .object [
          ("domain", .object [("name", .string c.domainName)]),
          ("name", .string c.username),
          ("password", .string c.password)])])]),
      ("scope", .object [("project", .object [
        ("name", .string c.projectName),
        ("domain", .object [("name", .string c.projectDomainName)])])])])]

def body (c : Credentials) (s : Strategy) : String := (s.request c).render

end Strategy

end TokenKeeper
