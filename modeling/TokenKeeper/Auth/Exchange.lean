import TokenKeeper.Auth.Response
import TokenKeeper.Auth.Strategy
import TokenKeeper.Http.Peer
import TokenKeeper.Http.Status
/-!
# From a response to a token

Which responses mean success, and the token in them. A response that is not complete is a failure
of the network whatever its status; then the status decides, then the body, then the header, then
the fields.
-/
namespace TokenKeeper

/-- The header in which a v3 response carries the token's id. -/
def subjectToken : String := "X-Subject-Token"

def subjectTokenOf (headers : Http.Headers) : Except AuthError (Option String) :=
  match headers.first? (Http.Header.of subjectToken []).name with
  | none => .ok none
  | some value =>
    match Http.visibleText? value with
    | some id => .ok (some id)
    | none => .error (.invalidResponse ("invalid " ++ subjectToken ++ " header"))

def V3Response.token (r : V3Response) (headers : Http.Headers) : Except AuthError Token := do
  let id ← required (← subjectTokenOf headers) subjectToken
  let issuedAt ← required r.issuedAt "token.issued_at"
  let expiresAt ← required r.expiresAt "token.expires_at"
  return ⟨id, issuedAt, expiresAt⟩

namespace Strategy

/-- The statuses that mean success. -/
def accepted : Strategy → List Nat
  | v2Token | v2Password => [200]
  | v3Password => [200, 201]

def tokenIn (s : Strategy) (r : Http.Response) : Except AuthError Token :=
  match s with
  | v2Token | v2Password => (V2Response.decode r.text).bind V2Response.token
  | v3Password => (V3Response.decode r.text).bind fun v => v.token r.headers

def judge (s : Strategy) (r : Http.Response) : Except AuthError Token :=
  -- the body is read to its end before the status is looked at
  if !r.isComplete then .error (.network .cutShort)
  else if s.accepted.contains r.status then s.tokenIn r
  else .error (.protocol (Http.statusLine r.status) r.text)

/-- The token in what became of a request. -/
def conclude (s : Strategy) (outcome : Except Http.Failure Http.Response) :
    Except AuthError Token :=
  match outcome with
  | .ok r => s.judge r
  | .error f => .error (.network f)

end Strategy

end TokenKeeper
