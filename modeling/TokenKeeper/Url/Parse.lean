import TokenKeeper.Url.Basic
/-!
# Reading urls

A text as a url, alone or seen from another url. Blanks around a text and line ends within it do
not count. Schemes of the web take a backslash for a slash and any number of slashes before the
host.
-/
namespace TokenKeeper.Url

/-- The text without blanks around it and without tabs and line ends. -/
def clean (s : List Char) : List Char :=
  let isBlank (c : Char) : Bool := c.toNat ≤ 0x20
  (((s.dropWhile isBlank).reverse.dropWhile isBlank).reverse).filter fun c =>
    c != '\t' && c != '\n' && c != '\r'

/-- The scheme before the first colon, in lower case, and the rest. -/
def splitScheme? (s : List Char) : Option (List Char × List Char) :=
  let isPart (c : Char) : Bool := c.isAlphanum || c == '+' || c == '-' || c == '.'
  match s.takeWhile isPart, s.dropWhile isPart with
  | c :: cs, ':' :: rest => if c.isAlpha then some ((c :: cs).map Char.toLower, rest) else none
  | _, _ => none

/-- A slash of a scheme. -/
def isSlash (known : Bool) (c : Char) : Bool := c == '/' || (known && c == '\\')

/-- The end of a url: what comes before the query, the query and the fragment. -/
def splitTail (s : List Char) : List Char × Option (List Char) × Option (List Char) :=
  let body := s.takeWhile (· != '#')
  let fragment := (s.dropWhile (· != '#')).tail?
  (body.takeWhile (· != '?'), (body.dropWhile (· != '?')).tail?, fragment)

/-- A segment that means the collection it is in. -/
def isDot (s : List Char) : Bool := [".", "%2e"].contains (String.ofList (s.map Char.toLower))

/-- A segment that means the collection above. -/
def isDoubleDot (s : List Char) : Bool :=
  ["..", ".%2e", "%2e.", "%2e%2e"].contains (String.ofList (s.map Char.toLower))

/-- Puts segments behind those that are there; dot segments lead back, and leave an empty segment
where they are the last. -/
def addSegments (there : List (List Char)) : List (List Char) → List (List Char)
  | [] => there
  | s :: rest =>
    let isLast := rest.isEmpty
    -- the last segment leaves a slash at the end, also if it leads back
    if isDoubleDot s then
      addSegments (there.dropLast ++ if isLast then [[]] else []) rest
    else if isDot s then addSegments (there ++ if isLast then [[]] else []) rest
    else addSegments (there ++ [percentEncode notInPath s]) rest

def splitSegments (known : Bool) (s : List Char) : List (List Char) :=
  s.splitOnP (isSlash known)

/-- The path behind a host: it begins with a slash, also where none is written if the scheme is
known. -/
def pathAfterHost (known : Bool) (s : List Char) : List (List Char) :=
  match s with
  | [] => if known then [[]] else []
  | c :: r => addSegments [] (splitSegments known (if isSlash known c then r else s))

/-- A user's name and password, if there are any, and the rest. -/
def splitUser (s : List Char) : Option (List Char × Option (List Char)) × List Char :=
  if s.contains '@' then
    let user := ((s.reverse.dropWhile (· != '@')).drop 1).reverse
    let rest := (s.reverse.takeWhile (· != '@')).reverse
    let name := user.takeWhile (· != ':')
    let password := (user.dropWhile (· != ':')).tail?
    (some (percentEncode notInUser name, password.map (percentEncode notInUser)), rest)
  else (none, s)

/-- The host and the port's text behind the first colon outside of brackets. -/
def splitPort (inside : Bool) : List Char → List Char × Option (List Char)
  | [] => ([], none)
  | c :: r =>
    if c == ':' && !inside then ([], some r)
    else
      let (h, p) := splitPort ((inside || c == '[') && c != ']') r
      (c :: h, p)

/-- The port, unless it is the one that the scheme has anyway. -/
def readPort (scheme s : List Char) : Except Fault (Option Nat) :=
  if s.isEmpty then .ok none
  else if !s.all Char.isDigit then .error .port
  else
    let n := s.foldl (fun n c => n * 10 + (c.toNat - 48)) 0
    if 65535 < n then .error .port
    else .ok (if hostSchemes.lookup scheme == some n then none else some n)

/-- The query as it is written in a url of that scheme. -/
def encodeQuery (scheme : List Char) (q : List Char) : List Char :=
  percentEncode (notInQuery (isKnown scheme)) q

/-- The url behind two slashes. -/
def afterSlashes (scheme s : List Char) : Except Fault Url := do
  let known := needsHost scheme
  let isEnd (c : Char) : Bool := isSlash known c || c == '?' || c == '#'
  let (user, hostAndPort) := splitUser (s.takeWhile (!isEnd ·))
  let (hostText, portText) := splitPort false hostAndPort
  let host ←
    if known then Host.ofText hostText
    else if hostText.isEmpty && (user.isSome || portText.isSome) then throw .emptyHost
    else Host.ofForeignText hostText
  let port ← readPort scheme (portText.getD [])
  let (path, query, fragment) := splitTail (s.dropWhile (!isEnd ·))
  return {
    scheme
    user := (user.map Prod.fst).getD []
    password := user.bind Prod.snd
    host := some host
    port
    path := .segments (pathAfterHost known path)
    query := query.map (encodeQuery scheme)
    fragment := fragment.map (percentEncode notInFragment) }

def hostless (scheme : List Char) (host : Option Host) (path : Path)
    (query fragment : Option (List Char)) : Url where
  scheme := scheme
  user := []
  password := none
  host := host
  port := none
  path := path
  query := query.map (encodeQuery scheme)
  fragment := fragment.map (percentEncode notInFragment)

/-- The url of a file: a host only behind two slashes. -/
def ofFile (s : List Char) : Except Fault Url := do
  let isEnd (c : Char) : Bool := isSlash true c || c == '?' || c == '#'
  let (hostText, rest) :=
    match s with
    | a :: b :: r =>
      if isSlash true a && isSlash true b then (r.takeWhile (!isEnd ·), r.dropWhile (!isEnd ·))
      else ([], s)
    | _ => ([], s)
  let host ← if hostText.isEmpty then pure (Host.name []) else Host.ofText hostText
  -- a file on the machine itself has no host
  let host := if host == .name "localhost".toList then .name [] else host
  let (path, query, fragment) := splitTail rest
  return hostless fileScheme (some host) (.segments (pathAfterHost true path)) query fragment

/-- The url of a scheme that is not known, without two slashes. -/
def ofForeign (scheme s : List Char) : Url :=
  let (path, query, fragment) := splitTail s
  match path with
  | '/' :: r =>
    hostless scheme none (.segments (addSegments [] (splitSegments false r))) query fragment
  | _ => hostless scheme none (.free (percentEncode isControl path)) query fragment

def afterScheme (scheme s : List Char) : Except Fault Url :=
  if scheme == fileScheme then ofFile s
  else if needsHost scheme then afterSlashes scheme (s.dropWhile (isSlash true))
  else
    match s with
    | '/' :: '/' :: r => afterSlashes scheme r
    | _ => .ok (ofForeign scheme s)

def parse (s : String) : Except Fault Url :=
  match splitScheme? (clean s.toList) with
  | some (scheme, rest) => afterScheme scheme rest
  | none => .error .noBase

/-- The url that a text without a scheme means, seen from `base`: what it does not say is taken
from there. -/
def relativeTo (base : Url) (s : List Char) : Except Fault Url :=
  let known := isKnown base.scheme
  let (path, query, fragment) := splitTail s
  let fragment := fragment.map (percentEncode notInFragment)
  let query := query.map (encodeQuery base.scheme)
  match base.path, path with
  | .free _, _ =>
    if s.head? == some '#' then .ok { base with fragment } else .error .noRelative
  | .segments there, [] =>
    .ok { base with path := .segments there, query := query.or base.query, fragment }
  | .segments there, c :: r =>
    match isSlash known c, r.head?.any (isSlash known) with
    | true, true => afterSlashes base.scheme (s.dropWhile (isSlash known))
    | true, false =>
      .ok { base with path := .segments (addSegments [] (splitSegments known r)), query, fragment }
    | false, _ =>
      let segments := addSegments there.dropLast (splitSegments known path)
      .ok { base with path := .segments segments, query, fragment }

/-- The url that a text means, seen from `base`. -/
def join (base : Url) (s : String) : Except Fault Url :=
  let s := clean s.toList
  match splitScheme? s with
  | some (scheme, rest) =>
    -- behind the scheme of the base, a text without two slashes means what it does without it
    if scheme == base.scheme && needsHost scheme
        && !((rest.take 2).length == 2 && (rest.take 2).all (isSlash true)) then
      relativeTo base rest
    else afterScheme scheme rest
  | none => relativeTo base s

end TokenKeeper.Url
