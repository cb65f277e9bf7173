import TokenKeeper.Auth.Exchange
import TokenKeeper.Token.Renewal
import TokenKeeper.World
/-!
# Exchanging credentials for a token

One exchange: the way the credentials call for, one request, and the token in the response. Every
exchange is counted when it begins and when it ends. Where v3 exchanges are to run unverified, the
transport stops verifying before the first one and stays so.
-/
namespace TokenKeeper

/-- Credentials with the way to the identity service. -/
structure Authenticator where
  credentials : Credentials
  transport : Transport
  forceInsecureV3 : Bool
deriving DecidableEq, Repr

namespace Authenticator

def strategy (a : Authenticator) : Strategy := .ofCredentials a.credentials

/-- Whether exchanges run unverified in any case. -/
def isForced (a : Authenticator) : Bool :=
  a.credentials.protocol == .v3 && a.forceInsecureV3

/-- The authenticator as an exchange uses it. -/
def prepared (a : Authenticator) : Authenticator :=
  if a.isForced then { a with transport := a.transport.forceInsecure } else a

def logTarget : String := TokenKeeper.logTarget "sources"

def startRecords (a : Authenticator) : List LogRecord :=
  (if a.isForced then
    [⟨.warn, logTarget, "v3 authentication runs with tls certificate verification disabled",
      [("auth_url", .text a.transport.authUrl)]⟩]
  else [])
  ++ [⟨.debug, TokenKeeper.logTarget "sources::exchange", "sending authentication request",
      [("url", .text (a.transport.url a.strategy.suffix))]⟩]

/-- What is written about whom a v2 response is for. -/
def scopeRecords (s : Strategy) (outcome : Except Http.Failure Http.Response) : List LogRecord :=
  let target := TokenKeeper.logTarget "sources::keystone_v2"
  match s.protocol, outcome with
  | .v2, .ok r =>
    if !r.isComplete || !s.accepted.contains r.status then []
    else
      match V2Response.decode r.text with
      | .error _ => []
      | .ok v =>
        (v.tenant.map fun t => ⟨.debug, target, "token scoped to tenant", [
          ("tenant_id", .text (displayOptional t.id)), ("tenant", .text (displayOptional t.name)),
          ("enabled", .text (match t.enabled with
            | some b => "Some(" ++ toString b ++ ")"
            | none => "None"))]⟩).toList
        ++ (v.user.map fun u => ⟨.debug, target, "token issued for user", [
          ("user_id", .text (displayOptional u.id)),
          ("username", .text (displayOptional u.username))]⟩).toList
  | _, _ => []

def endRecord (s : Strategy) (outcome : Except AuthError Token) : LogRecord :=
  match outcome with
  | .ok t => ⟨.info, logTarget, "authenticated against identity service", [
      ("protocol", .text s.protocol.name), ("method", .text s.method),
      ("expires_at", .text t.expiresAt)]⟩
  | .error e => ⟨.warn, logTarget, "authentication failed", [
      ("protocol", .text s.protocol.name), ("error", .text e.message)]⟩

/-- What the outcome of an exchange changes in the metrics. -/
def countOutcome (p : Protocol) (outcome : Except AuthError Token) (m : Metrics) : Metrics :=
  match outcome with
  | .ok t =>
    match readTime t.expiresAt with
    | .ok expires => m.setExpiry expires.second
    | .error _ => m
  | .error e => m.countFailure p e.kind

/-- Runs one exchange. -/
def authenticate (a : Authenticator) (w : World) : Except AuthError Token × Authenticator × World :=
  let s := a.strategy
  let a' := a.prepared
  let w := (w.log a'.startRecords).count (·.countRequest s.protocol s.method)
  let (outcome, w) := w.post a'.transport.client (a'.transport.url s.suffix) (s.body a.credentials)
  let token := s.conclude outcome
  let w := w.count fun m => countOutcome s.protocol token (m.countDuration s.protocol)
  -- who was forced goes on with the transport that verifies nothing
  (token, a', w.log (scopeRecords s outcome ++ [endRecord s token]))

end Authenticator

end TokenKeeper
