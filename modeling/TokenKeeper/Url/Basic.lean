import TokenKeeper.Url.Host
/-!
# Urls

A url in its parts, and its one normal form as text: names of hosts in lower case, no port where
the scheme has it anyway, no dot segments, and everything percent-encoded that has to be.
-/
namespace TokenKeeper

/-- The path of a url: a row of segments, or, where no host can be, any text. -/
inductive Url.Path where
  | segments (ss : List (List Char))
  | free (s : List Char)
deriving DecidableEq, Repr

structure Url where
  scheme : List Char
  user : List Char
  password : Option (List Char)
  host : Option Url.Host
  port : Option Nat
  path : Url.Path
  query : Option (List Char)
  fragment : Option (List Char)
deriving DecidableEq, Repr

namespace Url

/-- The schemes whose urls name a host in any case, with their ports. -/
def hostSchemes : List (List Char × Nat) := [
  ("http".toList, 80), ("https".toList, 443), ("ws".toList, 80), ("wss".toList, 443),
  ("ftp".toList, 21)]

def needsHost (scheme : List Char) : Bool := (hostSchemes.lookup scheme).isSome

def fileScheme : List Char := "file".toList

/-- Whether a scheme is one of those that every reader of urls knows. -/
def isKnown (scheme : List Char) : Bool := needsHost scheme || scheme == fileScheme

/-- Whether requests can be sent to it. -/
def isWeb (u : Url) : Bool := u.scheme == "http".toList || u.scheme == "https".toList

/-- Whether requests to it go over TLS. -/
def isSecure (u : Url) : Bool := u.scheme == "https".toList

/-- Whom the url addresses: a user, a host, and a port where the scheme does not tell it. -/
def authority (u : Url) : List Char :=
  let user :=
    if u.user.isEmpty && u.password.isNone then []
    else u.user ++ (u.password.elim [] fun p => ':' :: p) ++ ['@']
  user ++ (u.host.elim [] Host.text) ++ (u.port.elim [] fun p => ':' :: Nat.toDigits 10 p)

/-- The path as text. A path without a host that begins with an empty segment is kept apart from
a host by a dot. -/
def pathText (u : Url) : List Char :=
  match u.path with
  | .free s => s
  | .segments ss =>
    let guard := if u.host.isNone && 1 < ss.length && ss.head? == some [] then ['/', '.'] else []
    guard ++ ss.flatMap ('/' :: ·)

def text (u : Url) : String :=
  String.ofList <|
    u.scheme ++ [':']
      ++ (if u.host.isSome then ['/', '/'] ++ u.authority else [])
      ++ u.pathText
      ++ (u.query.elim [] fun q => '?' :: q)
      ++ (u.fragment.elim [] fun f => '#' :: f)

def withoutUser (u : Url) : Url := { u with user := [], password := none }

def withoutFragment (u : Url) : Url := { u with fragment := none }

/-- The port that requests go to. -/
def effectivePort (u : Url) : Option Nat := u.port.or (hostSchemes.lookup u.scheme)

/-- Where requests to it go: scheme, host and port. -/
def origin (u : Url) : List Char × Option Host × Option Nat := (u.scheme, u.host, u.effectivePort)

end Url

end TokenKeeper
