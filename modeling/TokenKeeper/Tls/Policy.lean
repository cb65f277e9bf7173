import TokenKeeper.Auth.Error
import TokenKeeper.Config.Basic
import TokenKeeper.Files
import TokenKeeper.Tls.Certificate
/-!
# TLS policies

How a peer is verified and whether the client shows a certificate of its own. A policy is resolved
from files once; whatever cannot be loaded is an error, never a weaker policy.
-/
namespace TokenKeeper

/-- The certificates a peer's certificate has to lead to, and the file they are from. -/
structure TrustRoots where
  path : String
  certificates : List Bytes
deriving DecidableEq, Repr

/-- The client's own certificate with those that lead to it, its key, and the file of the
certificate. -/
structure ClientIdentity where
  certPath : String
  certificates : List Bytes
  key : Pem.Section
deriving DecidableEq, Repr

inductive TlsPolicy where
  /-- By the roots that are built in, without an identity of the client's own. -/
  | default
  /-- Not at all. -/
  | insecure
  /-- By the given roots or those built in, with the given identity or none. -/
  | verified (roots : Option TrustRoots) (identity : Option ClientIdentity)
deriving DecidableEq, Repr

namespace TlsPolicy

def isInsecure : TlsPolicy → Bool
  | insecure => true
  | _ => false

def roots? : TlsPolicy → Option TrustRoots
  | verified roots _ => roots
  | _ => none

def identity? : TlsPolicy → Option ClientIdentity
  | verified _ identity => identity
  | _ => none

def caFile (p : TlsPolicy) : Option String := p.roots?.map TrustRoots.path

def certFile (p : TlsPolicy) : Option String := p.identity?.map ClientIdentity.certPath

/-- What is said of material that is there but cannot be used. -/
def unusable : String := "builder error"

def readFile (files : Files) (path : String) : Except AuthError Bytes :=
  (files.read path).mapError fun f => .tlsConfig path f.message

def contents (kind : Pem.Kind) (sections : List Pem.Section) : List Bytes :=
  (sections.filter (·.kind == kind)).map Pem.Section.content

/-- Loads the roots from a file; there has to be one. -/
def loadRoots (files : Files) (path : String) : Except AuthError TrustRoots := do
  let text ← readFile files path
  match Pem.sections text with
  | .error _ => throw (.tlsConfig path unusable)
  | .ok sections =>
    match contents .certificate sections with
    | [] => throw (.tlsConfig path "no PEM certificates found")
    | certificates => return ⟨path, certificates⟩

def isKey (s : Pem.Section) : Bool :=
  s.kind == .privateKey || s.kind == .rsaKey || s.kind == .ecKey

/-- The last key and all certificates of sections among which there is nothing else. -/
def pair? (sections : List Pem.Section) : Option (Pem.Section × List Bytes) :=
  let certificates := contents .certificate sections
  if sections.all fun s => isKey s || s.kind == .certificate then
    match (sections.filter isKey).getLast? with
    | some key => if certificates.isEmpty then none else some (key, certificates)
    | none => none
  else none

/-- Loads the client's identity from the file of a certificate and the file of its key, which are
read as one. -/
def loadIdentity (files : Files) (certPath keyPath : String) : Except AuthError ClientIdentity := do
  let certText ← readFile files certPath
  let keyText ← readFile files keyPath
  match (Pem.sections (certText ++ [10] ++ keyText)).toOption.bind pair? with
  | some (key, certificates) => return ⟨certPath, certificates, key⟩
  | none => throw (.tlsConfig (certPath ++ " + " ++ keyPath) unusable)

/-- The identity, if both a certificate and a key are named; one alone names none. -/
def resolveIdentity (files : Files) (t : TlsFiles) : Except AuthError (Option ClientIdentity) :=
  match t.certFile, t.keyFile with
  | some cert, some key => (loadIdentity files cert key).map some
  | _, _ => .ok none

/-- The roots, if a file of them is named. -/
def resolveRoots (files : Files) (t : TlsFiles) : Except AuthError (Option TrustRoots) :=
  match t.caFile with
  | some path => (loadRoots files path).map some
  | none => .ok none

/-- The policy that the files make. To verify nothing wins over everything else. -/
def resolve (files : Files) (t : TlsFiles) : Except AuthError TlsPolicy :=
  if t.insecure then .ok insecure
  else do
    let roots ← resolveRoots files t
    let identity ← resolveIdentity files t
    if roots.isNone && identity.isNone then return default
    else return verified roots identity

end TlsPolicy

/-- How requests are sent: whether peers are verified, by which roots in place of those built in,
as whom, and how long an answer may take. -/
structure HttpClient where
  verifies : Bool
  roots : Option (List Bytes)
  identity : Option ClientIdentity
  timeoutMs : Option Nat
deriving DecidableEq, Repr

/-- Whether the roots are certificates. -/
def TrustRoots.isUsable (r : TrustRoots) : Bool :=
  r.certificates.all fun c => (Certificate.ofDer? c).isSome

/-- Whether the key is one, and belongs to the first certificate. -/
def ClientIdentity.isUsable (i : ClientIdentity) : Bool :=
  match (i.certificates.head?).bind Certificate.ofDer?, PrivateKey.ofSection? i.key with
  | some certificate, some key => certificate.current && key.belongsTo certificate
  | _, _ => false

/-- The client that follows the policy. Only now are certificates and keys looked into. -/
def TlsPolicy.client (p : TlsPolicy) (timeoutMs : Option Nat) : Except AuthError HttpClient :=
  let rootsFit := p.roots?.all TrustRoots.isUsable
  let identityFits := p.identity?.all ClientIdentity.isUsable
  if rootsFit && identityFits then
    .ok ⟨!p.isInsecure, p.roots?.map TrustRoots.certificates, p.identity?, timeoutMs⟩
  else .error (.tlsConfig "<client>" TlsPolicy.unusable)

end TokenKeeper
