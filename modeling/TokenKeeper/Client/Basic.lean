import TokenKeeper.Auth.Authenticator
/-!
# Clients

A client keeps one token and puts it on requests. The lazy kind obtains one when it has none; the
keepalive kind also drops the one it has once it is past half its life. A token is replaced as a
whole, and only by an exchange that succeeds.
-/
namespace TokenKeeper

/-- When a client obtains a token. -/
inductive ClientKind where
  | onDemand
  | keepalive
deriving DecidableEq, Repr

structure Client where
  authenticator : Authenticator
  cache : TokenCache
deriving DecidableEq, Repr

namespace Client

def transport (c : Client) : Transport := c.authenticator.transport

/-- A client without a token that exchanges those credentials. -/
def new (credentials : Credentials) (forceInsecureV3 : Bool) : Client :=
  ⟨⟨credentials, .new credentials.authUrl none, forceInsecureV3⟩, none⟩

def withTransport (c : Client) (t : Transport) : Client :=
  { c with authenticator := { c.authenticator with transport := t } }

/-- Follows the policy that the files make. If they make none, nothing changes. -/
def addEncryption (files : Files) (c : Client) (tls : TlsFiles) : Except AuthError Client :=
  (c.transport.configure files tls).map c.withTransport

/-- The client that a configuration describes. A TLS section counts as if it were added later. -/
def ofConfig (files : Files) (config : ServiceConfig) : Except AuthError Client :=
  let transport := Transport.new config.identity.authUrl config.timeoutMs
  let c : Client := ⟨⟨config.identity, transport, config.forceInsecureV3⟩, none⟩
  match config.tls with
  | some tls => c.addEncryption files tls.files
  | none => .ok c

/-- What is written while a client is made from a configuration. -/
def ofConfigRecords (files : Files) (config : ServiceConfig) : List LogRecord :=
  match config.tls with
  | some tls =>
    (Transport.new config.identity.authUrl config.timeoutMs).configureRecords files tls.files
  | none => []

/-- Obtains a token and keeps it in place of any other. -/
def authenticate (c : Client) (w : World) : Except AuthError Unit × Client × World :=
  match c.authenticator.authenticate w with
  | (.ok token, a, w) => (.ok (), ⟨a, some ⟨token, a.credentials.protocol⟩⟩, w)
  | (.error e, a, w) => (.error e, { c with authenticator := a }, w)

def invalidate (c : Client) : Client := { c with cache := none }

def invalidateRecord : LogRecord :=
  ⟨.debug, logTarget "client::keystone_client", "cached token discarded", []⟩

/-- The headers with a token's id in the header for it. -/
def withToken (headers : Http.Headers) (id : String) : Except AuthError Http.Headers :=
  match Http.headerValue? id with
  | some value => .ok (headers.set ⟨Http.authToken, value, true⟩)
  | none => .error (.invalidHeader "failed to parse header value")

def inject (c : Client) (headers : Http.Headers) : Except AuthError Http.Headers :=
  match c.cache with
  | some kept => withToken headers kept.token.id
  | none => .error (.invalidResponse "no token cached after authentication")

/-- Puts the token on a request's headers; without one it is obtained first. -/
def addAuthentication (c : Client) (headers : Http.Headers) (w : World) :
    Except AuthError Http.Headers × Client × World :=
  if c.cache.isSome then (c.inject headers, c, w)
  else
    match c.authenticate w with
    | (.ok _, c, w) => (c.inject headers, c, w)
    | (.error e, c, w) => (.error e, c, w)

def renewRecord : LogRecord :=
  ⟨.info, logTarget "client::keepalive", "cached token past half-life, re-authenticating", []⟩

/-- Puts the token on a request's headers; one past half its life is dropped first. -/
def addAuthenticationKeepalive (now : Time.Instant) (c : Client) (headers : Http.Headers)
    (w : World) : Except AuthError Http.Headers × Client × World :=
  match c.cache.needsRenewal now with
  | .error e => (.error e, c, w)
  | .ok isDue =>
    -- renewal is due without a token too, but then nothing is dropped
    if isDue && c.cache.isSome then
      c.invalidate.addAuthentication headers
        ((w.log [renewRecord, invalidateRecord]).count Metrics.countRefresh)
    else c.addAuthentication headers w

end Client

end TokenKeeper
