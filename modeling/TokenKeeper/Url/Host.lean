import TokenKeeper.Url.Percent
import TokenKeeper.Url.Label
/-!
# Hosts

The host of a url: a name, or an address in one of two versions. A name whose last part is a number
is meant as an address, in which each part may be decimal, octal or hexadecimal and the last one
fills what is left.
-/
namespace TokenKeeper.Url

inductive Fault where
  | emptyHost
  | name
  | port
  | addressV4
  | addressV6
  | character
  | noBase
  | noRelative
deriving DecidableEq, Repr

def Fault.message : Fault → String
  | emptyHost => "empty host"
  | name => "invalid international domain name"
  | port => "invalid port number"
  | addressV4 => "invalid IPv4 address"
  | addressV6 => "invalid IPv6 address"
  | character => "invalid domain character"
  | noBase => "relative URL without a base"
  | noRelative => "relative URL with a cannot-be-a-base base"

inductive Host where
  | name (s : List Char)
  | v4 (address : Nat)
  | v6 (pieces : List Nat)
deriving DecidableEq, Repr

namespace Host

/-- The four bytes of an address, the most significant first. -/
def v4Text (n : Nat) : List Char :=
  ['.'].intercalate
    ([n / 0x1000000, n / 0x10000 % 256, n / 0x100 % 256, n % 256].map (Nat.toDigits 10))

/-- How many zeros stand at the front. -/
def zeros (pieces : List Nat) : Nat := (pieces.takeWhile (· == 0)).length

/-- The longest row of zeros: how many pieces come before it, and its length. The first wins. -/
def longestGap (pieces : List Nat) : Nat × Nat :=
  let better (best : Nat × Nat) (i : Nat) : Nat × Nat :=
    let n := zeros (pieces.drop i)
    if best.2 < n then (i, n) else best
  (List.range pieces.length).foldl better (0, 0)

/-- An address of eight pieces; the longest row of at least two zeros is left out. -/
def v6Text (pieces : List Nat) : List Char :=
  let joined (ps : List Nat) : List Char := [':'].intercalate (ps.map (Nat.toDigits 16))
  let (at_, n) := longestGap pieces
  if n < 2 then joined pieces
  else joined (pieces.take at_) ++ [':', ':'] ++ joined (pieces.drop (at_ + n))

def text : Host → List Char
  | name s => s
  | v4 n => v4Text n
  | v6 ps => '[' :: v6Text ps ++ [']']

/-- The number in digits of that base; `0` without any digit. -/
def based (base : Nat) (s : List Char) : Option Nat :=
  let digit? (c : Char) : Option Nat :=
    let v :=
      if c.isDigit then c.toNat - 48
      else if c.isAlpha then c.toLower.toNat - 87
      else base
    if v < base then some v else none
  s.foldl (fun n c => n.bind fun n => (digit? c).map (n * base + ·)) (some 0)

/-- A part of an address: a leading zero makes it octal, `0x` hexadecimal. -/
def number? (s : List Char) : Option Nat :=
  match s with
  | [] => none
  | '0' :: 'x' :: r | '0' :: 'X' :: r => based 16 r
  | '0' :: c :: r => based 8 (c :: r)
  | _ => based 10 s

/-- The parts of a name, without an empty one at its end. -/
def parts (s : List Char) : List (List Char) :=
  let ps := s.splitOn '.'
  if 1 < ps.length && ps.getLast? == some [] then ps.dropLast else ps

/-- Whether a name is meant as an address. -/
def isNumeric (s : List Char) : Bool :=
  match (parts s).getLast? with
  | some last => (!last.isEmpty && last.all Char.isDigit) || (number? last).isSome
  | none => false

def v4? (s : List Char) : Option Nat :=
  let ps := parts s
  if 4 < ps.length then none
  else
    (ps.mapM number?).bind fun ns =>
      match ns.reverse with
      | [] => none
      | last :: firsts =>
        if firsts.any (255 < ·) || Nat.pow 256 (4 - firsts.length) ≤ last then none
        else some (firsts.reverse.zipIdx.foldl (fun n (b, i) => n + b * Nat.pow 256 (3 - i)) last)

/-- A piece of an address of the later version. -/
def piece? (s : List Char) : Option Nat :=
  if s.isEmpty || 4 < s.length then none else based 16 s

/-- The two pieces that four decimal bytes make; none of them has a leading zero. -/
def bytes? (s : List Char) : Option (List Nat) :=
  let byte? (p : List Char) : Option Nat :=
    if p.isEmpty || (p.head? == some '0' && 1 < p.length) then none
    else ((if p.all Char.isDigit then based 10 p else none)).filter (· < 256)
  match (s.splitOn '.').mapM byte? with
  | some [a, b, c, d] => some [a * 256 + b, c * 256 + d]
  | _ => none

/-- A row of pieces with colons between them; four bytes may stand at the end of the address. -/
def pieces? (atEnd : Bool) (s : List Char) : Option (List Nat) :=
  if s.isEmpty then some []
  else
    let groups := s.splitOn ':'
    let last := groups.getLast?.getD []
    if atEnd && last.contains '.' then
      (groups.dropLast.mapM piece?).bind fun ps => (bytes? last).map (ps ++ ·)
    else groups.mapM piece?

/-- What comes before and after the first two colons in a row. -/
def splitGap? : List Char → Option (List Char × List Char)
  | ':' :: ':' :: r => some ([], r)
  | c :: r => (splitGap? r).map fun (a, b) => (c :: a, b)
  | [] => none

/-- An address of the later version: eight pieces, or fewer around a gap. -/
def v6? (s : List Char) : Option (List Nat) :=
  match splitGap? s with
  | none => (pieces? true s).filter (·.length == 8)
  | some (a, b) =>
    match pieces? false a, pieces? true b with
    | some xs, some ys =>
      if xs.length + ys.length ≤ 7 then
        some (xs ++ List.replicate (8 - xs.length - ys.length) 0 ++ ys)
      else none
    | _, _ => none

/-- What no name of a host may contain. -/
def isForbidden (c : Char) : Bool :=
  c.toNat ≤ 0x20 || c == '\x7f' ||
    ['#', '/', ':', '<', '>', '?', '@', '[', '\\', ']', '^', '|', '%'].contains c

def ofText (s : List Char) : Except Fault Host :=
  if s.isEmpty then .error .emptyHost
  else if s.head? == some '[' then
    if s.getLast? != some ']' then .error .addressV6
    else ((v6? ((s.drop 1).dropLast)).map Host.v6).elim (.error .addressV6) .ok
  else
    let s := (Text.Utf8.decodeLossy (percentDecode (Text.Utf8.encode (String.ofList s)))).toList
    match Label.name? s with
    | none => .error .name
    | some s =>
      if s.isEmpty then .error .emptyHost
      else if s.any isForbidden then .error .name
      else if isNumeric s then ((v4? s).map Host.v4).elim (.error .addressV4) .ok
      else .ok (.name s)

/-- The host of another url: any text, with its control characters written out. -/
def ofForeignText (s : List Char) : Except Fault Host :=
  if s.head? == some '[' then ofText s
  else if s.any fun c => c != '%' && isForbidden c then .error .character
  else .ok (.name (percentEncode isControl s))

end Host

end TokenKeeper.Url
