import TokenKeeper.Http.Message
import TokenKeeper.Tls.Policy
/-!
# The peer

The other side of every connection: one server, whatever the host and port. It follows a script:
each request that reaches it takes the next reply. Over TLS it shows one certificate, and a request
reaches it only if the client does not verify or trusts one of those that the certificate leads to.
-/
namespace TokenKeeper.Http

/-- What the peer does with a request. -/
inductive Reply where
  | response (r : Response)
  | close
  | stall
deriving DecidableEq, Repr

/-- The reply that a status, headers and a body make. Some statuses never have a body. -/
def Reply.of (status : Nat) (headers : Headers) (body : Bytes) (isComplete : Bool) : Reply :=
  let headers := headers.map fun h => { Header.of h.name h.value with value := trimValue h.value }
  if status == 204 || status == 304 then .response ⟨status, headers, [], true⟩
  else .response ⟨status, headers, body, isComplete⟩

/-- Where a chain of certificates may end: with a root that clients have built in, or with a
certificate that they may be given. -/
inductive Anchor where
  | builtIn
  | certificate (der : Bytes)
deriving DecidableEq, Repr

/-- The peer: whether anything listens, the hosts its certificate is for and what the certificate
leads to, and the replies to come. -/
structure Peer where
  listens : Bool
  hosts : List Url.Host
  anchors : List Anchor
  script : List Reply
deriving DecidableEq, Repr

namespace Peer

/-- Whether the peer's certificate leads to one of the roots, or else to one that is built in. -/
def isTrusted (p : Peer) (roots : Option (List Bytes)) : Bool :=
  match roots with
  | some roots => roots.any fun r => p.anchors.contains (.certificate r)
  | none => p.anchors.contains .builtIn

/-- Whether a connection to the peer under that host comes about. -/
def accepts (p : Peer) (client : HttpClient) (url : Url) : Bool :=
  p.listens &&
    (!url.isSecure || !client.verifies ||
      (p.isTrusted client.roots && url.host.any p.hosts.contains))

end Peer

/-- What became of a request: the response or why there is none, the peer afterwards, and the
requests that reached it. -/
structure Exchanged where
  outcome : Except Failure Response
  peer : Peer
  received : List Request

/-- Sends a request once. -/
def deliver (client : HttpClient) (r : Request) (p : Peer) : Exchanged :=
  if !p.accepts client r.url then ⟨.error (.unanswered r.url.text), p, []⟩
  else
    let after := { p with script := p.script.drop 1 }
    match p.script with
    | .response answer :: _ => ⟨.ok answer, after, [r]⟩
    | _ => ⟨.error (.unanswered r.url.text), after, [r]⟩

/-- Sends a request and follows redirects, at most so many. -/
def follow (client : HttpClient) : Nat → Request → Peer → Exchanged
  | n, r, p =>
    let first := deliver client r p
    match first.outcome with
    | .error _ => first
    | .ok answer =>
      match r.next? answer with
      | none => first
      | some next =>
        match n with
        | 0 => { first with outcome := .error (.redirected r.url.text) }
        | n + 1 =>
          if !next.url.isWeb then
            { first with outcome := .error (.foreignScheme next.url.text) }
          else
            let rest := follow client n next first.peer
            -- what reached the peer before counts, however the rest ends
            { rest with received := first.received ++ rest.received }

def maxRedirects : Nat := 10

def send (client : HttpClient) (r : Request) (p : Peer) : Exchanged :=
  follow client maxRedirects r p

end TokenKeeper.Http
