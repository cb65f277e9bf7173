import TokenKeeper.Http.Failure
import TokenKeeper.Time.Rfc3339
/-!
# What can go wrong

Every failure of authentication, of the renewal rule and of the transport's setup. Nothing is
retried: the operation that fails hands its error to the caller.
-/
namespace TokenKeeper

inductive AuthError where
  /-- The identity service answered with a status other than success. -/
  | protocol (status body : String)
  /-- The request's body could not be written. -/
  | marshal (reason : String)
  /-- The identity service gave no complete response. -/
  | network (failure : Http.Failure)
  /-- A time of the cached token is no timestamp. -/
  | timeParse (value : String) (fault : Time.Fault)
  /-- The material under `path` could not be loaded. -/
  | tlsConfig (path reason : String)
  /-- The response means success but describes no complete token. -/
  | invalidResponse (reason : String)
  /-- The token's id cannot stand in a header. -/
  | invalidHeader (reason : String)
deriving DecidableEq, Repr

namespace AuthError

/-- The short label under which failures are counted. -/
def kind : AuthError → String
  | protocol .. => "protocol"
  | marshal _ => "marshal"
  | network _ => "network"
  | timeParse .. => "time_parse"
  | tlsConfig .. => "tls_config"
  | invalidResponse _ => "invalid_response"
  | invalidHeader _ => "invalid_header"

def message : AuthError → String
  | protocol status body => status ++ ": " ++ body
  | marshal reason => "failed to marshal authentication request: " ++ reason
  | network failure => "identity service unreachable: " ++ failure.message
  | timeParse value fault => "malformed token timestamp '" ++ value ++ "': " ++ fault.message
  | tlsConfig path reason => "tls configuration error (" ++ path ++ "): " ++ reason
  | invalidResponse reason => "invalid identity service response: " ++ reason
  | invalidHeader reason => "invalid auth header value: " ++ reason

end AuthError

end TokenKeeper
