import TokenKeeper.Config.Display
import TokenKeeper.Log.Level
import TokenKeeper.Transport
/-!
# Log records

What is written down while the program works: a level, the part of the program it comes from, a
message, and named values. A threshold decides which records are written.
-/
namespace TokenKeeper

inductive LogValue where
  | text (s : String)
  | number (n : Nat)
deriving DecidableEq, Repr

structure LogRecord where
  level : LogLevel
  target : String
  message : String
  fields : List (String × LogValue)
deriving DecidableEq, Repr

def logTarget (part : String) : String :=
  if part.isEmpty then "keystone_auth" else "keystone_auth::" ++ part

/-- A text as records show one that may be missing. -/
def displayOptional (s : Option String) : String :=
  match s with
  | some s => "Some(" ++ Text.quoted s ++ ")"
  | none => "None"

namespace TlsFiles

def logTarget : String := TokenKeeper.logTarget "transport::tls"

def rootsRecord (r : TrustRoots) : LogRecord :=
  ⟨.debug, logTarget, "loaded ca certificates",
    [("path", .text r.path), ("count", .number r.certificates.length)]⟩

/-- What is written when an identity is loaded, or only half of one is named. -/
def identityRecords (files : Files) (t : TlsFiles) : List LogRecord :=
  match t.certFile, t.keyFile with
  | some cert, some key =>
    match TlsPolicy.loadIdentity files cert key with
    | .ok i => [⟨.debug, logTarget, "loaded client identity", [("cert", .text i.certPath)]⟩]
    | .error _ => []
  | none, none => []
  | cert, key => [⟨.warn, logTarget,
      "client certificate and key must both be set, mutual tls disabled",
      [("cert", .text (displayOptional cert)), ("key", .text (displayOptional key))]⟩]

def resolveRecords (files : Files) (t : TlsFiles) : List LogRecord :=
  if t.insecure then []
  else
    match TlsPolicy.resolveRoots files t with
    | .error _ => []
    | .ok roots => (roots.map rootsRecord).toList ++ identityRecords files t

end TlsFiles

namespace Transport

def logTarget : String := TokenKeeper.logTarget "transport"

def configureRecords (files : Files) (t : Transport) (tls : TlsFiles) : List LogRecord :=
  tls.resolveRecords files ++
    match t.configure files tls with
    | .error _ => []
    | .ok after =>
      (if after.authUrl == t.authUrl then []
        else [⟨.info, logTarget, "identity service url upgraded to https",
          [("from", .text t.authUrl), ("to", .text after.authUrl)]⟩])
      ++ (if after.policy.isInsecure then
          [⟨.warn, logTarget, "tls certificate verification disabled for identity service", []⟩]
        else [])

end Transport

end TokenKeeper
