import TokenKeeper.Decimal.Shortest
import TokenKeeper.Text.Quoted
import TokenKeeper.Yaml.Scalar
/-!
# What a scalar stands for

A plain scalar is null, a truth value, a whole number, a floating point number or a text, by its
spelling alone; a tag of the core schema overrides the spelling. Numbers are given in any of four
widths, and the narrowest one that holds a number is the one it has.
-/
namespace TokenKeeper.Yaml

/-- What a node holds, read without expecting anything. -/
inductive Found where
  | null
  | flag (b : Bool)
  | integer (i : Int)
  /-- A number that takes more than 64 bits. -/
  | wide (i : Int)
  | float (negative : Bool) (x : Decimal.Binary)
  | infinite (negative : Bool)
  | notANumber
  | text (s : List Char)
  | sequence
  | mapping

def Found.describe : Found → String
  | null => "unit value"
  | flag b => "boolean \x60" ++ toString b ++ "\x60"
  | integer i => "integer \x60" ++ toString i ++ "\x60"
  | wide i =>
    "integer \x60" ++ toString i ++ (if i < 0 then "\x60 as i128" else "\x60 as u128")
  | float negative x =>
    "floating point \x60"
      ++ String.ofList ((if negative then ['-'] else []) ++ x.digits.positional) ++ "\x60"
  | infinite negative => "floating point \x60" ++ (if negative then "-inf\x60" else "inf\x60")
  | notANumber => "floating point \x60NaN\x60"
  | text s => "string " ++ Text.quoted (String.ofList s)
  | sequence => "sequence"
  | mapping => "map"

/-- Whether a plain text is one of the spellings of null. -/
def isNull (s : List Char) : Bool :=
  ["~", "null", "Null", "NULL"].contains (String.ofList s)

def flag? (s : List Char) : Option Bool :=
  if ["true", "True", "TRUE"].contains (String.ofList s) then some true
  else if ["false", "False", "FALSE"].contains (String.ofList s) then some false
  else none

/-- What comes after the characters `start`, if the text begins with them. -/
def after? (start s : List Char) : Option (List Char) :=
  if start.isPrefixOf s then some (s.drop start.length) else none

/-- The number written in digits of that base; none without any digit. -/
def digits? (base : Nat) (s : List Char) : Option Nat :=
  let digit? (c : Char) : Option Nat :=
    let v :=
      if c.isDigit then c.toNat - 48
      else if c.isAlpha then c.toLower.toNat - 87
      else base
    if v < base then some v else none
  if s.isEmpty then none
  else s.foldl (fun n c => n.bind fun n => (digit? c).map (n * base + ·)) (some 0)

/-- Whether a text is digits after an idle zero: it is no number then, with or without a sign. -/
def isPadded (s : List Char) : Bool :=
  let s := match s with
    | '-' :: r | '+' :: r => r
    | _ => s
  match s with
  | '0' :: r => !r.isEmpty && r.all Char.isDigit
  | _ => false

/-- The number written behind one of the marks of a base. -/
def marked? (sign : List Char) (limit : Nat) (s : List Char) : Option Nat :=
  let based (mark : String) (base : Nat) : Option Nat :=
    ((after? (sign ++ mark.toList) s).bind (digits? base)).filter (· ≤ limit)
  ((based "0x" 16).or (based "0o" 8)).or (based "0b" 2)

/-- The whole number that a text spells without a minus sign, up to `limit`. -/
def natural? (limit : Nat) (s : List Char) : Option Nat :=
  let bare := (after? ['+'] s).getD s
  (marked? [] limit bare).or
    (if isPadded s then none else (digits? 10 bare).filter (· ≤ limit))

/-- The whole number that a text spells with a minus sign, down to `-limit`. -/
def negative? (limit : Nat) (s : List Char) : Option Int :=
  ((marked? ['-'] limit s).or
    (if isPadded s then none
      else ((after? ['-'] s).bind (digits? 10)).filter (· ≤ limit))).map fun n => -(n : Int)

def largest64 : Nat := 0xFFFFFFFFFFFFFFFF

def largest128 : Nat := 0xFFFFFFFFFFFFFFFFFFFFFFFFFFFFFFFF

/-- The whole number that a text spells, in the narrowest width. -/
def integer? (s : List Char) : Option Found :=
  let narrow := ((natural? largest64 s).map Int.ofNat).or (negative? (largest64 / 2 + 1) s)
  let wide := ((natural? largest128 s).map Int.ofNat).or (negative? (largest128 / 2 + 1) s)
  (narrow.map Found.integer).or (wide.map Found.wide)

/-- The exponent behind a number's digits: a sign may come before its own digits. -/
def exponent? (s : List Char) : Option Int :=
  match s with
  | [] => some 0
  | e :: r =>
    if e != 'e' && e != 'E' then none
    else
      match r with
      | '-' :: r => (digits? 10 r).map fun n => -(n : Int)
      | '+' :: r => (digits? 10 r).map Int.ofNat
      | _ => (digits? 10 r).map Int.ofNat

/-- The floating point number that digits, a point and an exponent spell: at least one digit on
either side of the point, and no infinite value. -/
def decimal? (s : List Char) : Option (Bool × Decimal.Binary) :=
  let (negative, s) :=
    match s with
    | '-' :: r => (true, r)
    | '+' :: r => (false, r)
    | _ => (false, s)
  let whole := s.takeWhile Char.isDigit
  let rest := s.dropWhile Char.isDigit
  let (places, rest) :=
    match rest with
    | '.' :: r => (r.takeWhile Char.isDigit, r.dropWhile Char.isDigit)
    | _ => ([], rest)
  (digits? 10 (whole ++ places)).bind fun n =>
    (exponent? rest).bind fun e =>
      (Decimal.ofDecimal n (e - places.length)).map fun x => (negative, x)

def float? (s : List Char) : Option Found :=
  let bare := (after? ['+'] s).getD s
  if s.head? == some '+' && (bare.head? == some '+' || bare.head? == some '-') then none
  else if [".inf", ".Inf", ".INF"].contains (String.ofList bare) then some (.infinite false)
  else if ["-.inf", "-.Inf", "-.INF"].contains (String.ofList s) then some (.infinite true)
  else if [".nan", ".NaN", ".NAN"].contains (String.ofList s) then some .notANumber
  else (decimal? bare).map fun (negative, x) => .float negative x

/-- What a plain scalar stands for. -/
def Found.ofPlain (s : List Char) : Found :=
  if s.isEmpty || isNull s then .null
  else
    match flag? s with
    | some b => .flag b
    | none =>
      match integer? s with
      | some i => i
      | none => ((if isPadded s then none else float? s)).getD (.text s)

def coreTag (name : String) : List Char := ("tag:yaml.org,2002:" ++ name).toList

/-- Whether a tag is one of a document's own, not one of a schema. -/
def isLocalTag (tag : Option (List Char)) : Bool :=
  (tag.bind List.head?) == some '!'

def localTag? (tag : Option (List Char)) : Option (List Char) :=
  tag.bind (after? ['!'])

/-- What a scalar stands for; the error is what its tag asks for in vain. -/
def Found.ofScalar (tag : Option (List Char)) (s : List Char) (style : Style) :
    Except String Found :=
  match tag with
  | none => .ok (if style == .plain then .ofPlain s else .text s)
  | some t =>
    if t == coreTag "bool" then ((flag? s).map Found.flag).elim (.error "a boolean") .ok
    else if t == coreTag "int" then (integer? s).elim (.error "an integer") .ok
    else if t == coreTag "float" then (float? s).elim (.error "a float") .ok
    else if t == coreTag "null" then if isNull s then .ok .null else .error "null"
    else if isLocalTag tag && style == .plain then .ok (.ofPlain s)
    else .ok (.text s)

end TokenKeeper.Yaml
