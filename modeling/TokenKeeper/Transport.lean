import TokenKeeper.Auth.Address
import TokenKeeper.Tls.Policy
/-!
# The transport

What requests to the identity service go through: its address, the policy by which it is verified,
and the client made from the policy. The three change together or not at all.
-/
namespace TokenKeeper

structure Transport where
  client : HttpClient
  authUrl : String
  policy : TlsPolicy
  timeoutMs : Option Nat
deriving DecidableEq, Repr

/-- The client without any TLS material. -/
def HttpClient.plain (verifies : Bool) (timeoutMs : Option Nat) : HttpClient :=
  ⟨verifies, none, none, timeoutMs⟩

namespace Transport

/-- The way to an address, with the default policy. -/
def new (authUrl : String) (timeoutMs : Option Nat) : Transport :=
  ⟨.plain true timeoutMs, authUrl, .default, timeoutMs⟩

/-- Follows the policy that the files make, and goes over TLS from now on. -/
def configure (files : Files) (t : Transport) (tls : TlsFiles) : Except AuthError Transport := do
  let policy ← TlsPolicy.resolve files tls
  let client ← policy.client t.timeoutMs
  return { t with client, policy, authUrl := secureScheme t.authUrl }

/-- Verifies nothing from now on. The address stays. -/
def forceInsecure (t : Transport) : Transport :=
  if t.policy.isInsecure then t
  else { t with client := .plain false t.timeoutMs, policy := .insecure }

def url (t : Transport) (suffix : String) : String := joinUrl t.authUrl suffix

end Transport

end TokenKeeper
