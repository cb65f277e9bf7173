import TokenKeeper.Client.Basic
import TokenKeeper.Metrics.Exposition
/-!
# Runs of a client

What can be asked of a client, one thing after the other, and what is seen of each step: its
result, the token kept afterwards, the way to the identity service, and the requests that reached
the peer meanwhile. Files and clock may differ from step to step.
-/
namespace TokenKeeper

inductive Operation where
  | authenticate
  | addAuthentication (headers : Http.Headers)
  | needsRenewal
  | addEncryption (tls : TlsFiles)
  | invalidate
  | display
  | metrics
deriving DecidableEq, Repr

/-- What a step finds: files and the time of day. -/
structure Surroundings where
  files : Files
  now : Time.Instant
deriving DecidableEq, Repr

inductive Outcome where
  | done (result : Except AuthError Unit)
  | authenticated (result : Except AuthError Unit) (headers : Http.Headers)
  | judged (result : Except AuthError Bool)
  | text (s : String)
  | lines (ls : List String)

/-- A client of one of the kinds, with what it acts upon. -/
structure Session where
  kind : ClientKind
  client : Client
  world : World
deriving DecidableEq, Repr

namespace Session

/-- Puts the token on a request's headers, as the kind of client does it. -/
def addAuthentication (s : Session) (now : Time.Instant) (headers : Http.Headers) :
    Except AuthError Http.Headers × Client × World :=
  match s.kind with
  | .onDemand => s.client.addAuthentication headers s.world
  | .keepalive => s.client.addAuthenticationKeepalive now headers s.world

/-- One step. A request's headers stay as they are if no token can be put on it. -/
def step (s : Session) (around : Surroundings) : Operation → Outcome × Session
  | .authenticate =>
    let (result, client, world) := s.client.authenticate s.world
    (.done result, { s with client, world })
  | .addAuthentication headers =>
    let (result, client, world) := s.addAuthentication around.now headers
    let after := match result with
      | .ok headers => headers
      | .error _ => headers
    (.authenticated (result.map fun _ => ()) after, { s with client, world })
  | .needsRenewal => (.judged (s.client.cache.needsRenewal around.now), s)
  | .addEncryption tls =>
    let world := s.world.log (s.client.transport.configureRecords around.files tls)
    match s.client.addEncryption around.files tls with
    | .ok client => (.done (.ok ()), { s with client, world })
    | .error e => (.done (.error e), { s with world })
  | .invalidate =>
    (.done (.ok ()),
      { s with client := s.client.invalidate, world := s.world.log [Client.invalidateRecord] })
  | .display => (.text s.client.authenticator.credentials.display, s)
  | .metrics => (.lines s.world.metrics.lines, s)

/-- The requests that have reached the peer since an earlier state. -/
def receivedSince (s earlier : Session) : List Http.Request :=
  s.world.received.drop earlier.world.received.length

structure View where
  outcome : Outcome
  cache : TokenCache
  authUrl : String
  policy : TlsPolicy
  received : List Http.Request

def observe (s : Session) (around : Surroundings) (o : Operation) : View × Session :=
  let (outcome, after) := s.step around o
  (⟨outcome, after.client.cache, after.client.transport.authUrl, after.client.transport.policy,
    after.receivedSince s⟩, after)

def run : Session → List (Surroundings × Operation) → List View × Session
  | s, [] => ([], s)
  | s, (around, o) :: rest =>
    let (v, s) := s.observe around o
    let (vs, s) := run s rest
    (v :: vs, s)

end Session

end TokenKeeper
