import TokenKeeper.Json.Basic
import TokenKeeper.Json.Numeral
/-!
# Reading JSON texts

A text is read into a draft: the value as far as it could be read, with a break at the place
where reading had to stop. Whoever takes the draft apart in the order of the text so meets first
what comes first, a value of the wrong kind or the break. A part that is only skipped is held to
less: its strings may hold halves of surrogate pairs, and some breaks are described otherwise;
therefore a break carries both descriptions.
-/
namespace TokenKeeper.Json

/-- Where and why a text is not JSON. -/
inductive Fault where
  | endInValue
  | endInList
  | endInObject
  | endInString
  | expectedValue
  | expectedIdent
  | expectedColon
  | expectedListCommaOrEnd
  | expectedObjectCommaOrEnd
  | trailingComma
  | trailingCharacters
  | keyMustBeString
  | invalidNumber
  | numberOutOfRange
  | controlInString
  | unknownEscape
  | badHexEscape
  | halfPair
  | wrongHalf
deriving DecidableEq, Repr

def Fault.message : Fault → String
  | endInValue => "EOF while parsing a value"
  | endInList => "EOF while parsing a list"
  | endInObject => "EOF while parsing an object"
  | endInString => "EOF while parsing a string"
  | expectedValue => "expected value"
  | expectedIdent => "expected ident"
  | expectedColon => "expected `:`"
  | expectedListCommaOrEnd => "expected `,` or `]`"
  | expectedObjectCommaOrEnd => "expected `,` or `\x7d`"
  | trailingComma => "trailing comma"
  | trailingCharacters => "trailing characters"
  | keyMustBeString => "key must be a string"
  | invalidNumber => "invalid number"
  | numberOutOfRange => "number out of range"
  | controlInString => "control character (\\u0000-\\u001F) found while parsing a string"
  | unknownEscape => "invalid escape"
  | badHexEscape => "invalid escape"
  | halfPair => "unexpected end of hex escape"
  | wrongHalf => "lone leading surrogate in hex escape"

/-- A place where reading stopped: the fault if the part is read and if it is only skipped. -/
structure Break where
  read : Fault
  skipped : Fault
deriving DecidableEq, Repr

/-- A break that is the same either way. -/
def Break.plain (f : Fault) : Break := ⟨f, f⟩

/-- The text of a string, or why it has none although it is complete. -/
abbrev DraftText := Except Fault String

/-- A value as far as it could be read. Nothing follows a break, in the containers around it
either. -/
inductive Draft where
  | null
  | bool (b : Bool)
  | number (n : Numeral)
  | string (s : DraftText)
  | array (items : List Draft) (stop : Option Break)
  | object (members : List (DraftText × Draft)) (stop : Option Break)
  | broken (b : Break)

/-! ## Strings -/

/-- A piece of a string: a character, or an escaped UTF-16 code unit. -/
inductive Piece where
  | char (c : Char)
  | unit (n : Nat)
deriving DecidableEq, Repr

def hexValue? (c : Char) : Option Nat :=
  if c.isDigit then some (c.toNat - 48)
  else if 'a' ≤ c && c ≤ 'f' then some (c.toNat - 87)
  else if 'A' ≤ c && c ≤ 'F' then some (c.toNat - 55)
  else none

def hexUnit : List Char → Except Fault (Nat × List Char)
  | a :: b :: c :: d :: rest =>
    match hexValue? a, hexValue? b, hexValue? c, hexValue? d with
    | some a, some b, some c, some d => .ok (((a * 16 + b) * 16 + c) * 16 + d, rest)
    | _, _, _, _ => .error .badHexEscape
  | cs => .error (if (String.ofList cs).utf8ByteSize < 4 then .endInString else .badHexEscape)

def simpleEscape? (c : Char) : Option Char :=
  if c == '"' || c == '\\' || c == '/' then some c
  else if c == 'b' then some '\x08'
  else if c == 'f' then some '\x0c'
  else if c == 'n' then some '\n'
  else if c == 'r' then some '\r'
  else if c == 't' then some '\t'
  else none

/-- The pieces of a string up to its closing quote, and the text after it or the fault that ends
the string before. The number bounds the pieces. -/
def pieces : Nat → List Char → List Piece × Except Fault (List Char)
  | 0, _ => ([], .error .endInString)
  | _, [] => ([], .error .endInString)
  | n + 1, c :: cs =>
    if c == '"' then ([], .ok cs)
    else if c.toNat < 32 then ([], .error .controlInString)
    else if c == '\\' then
      match cs with
      | [] => ([], .error .endInString)
      | e :: rest =>
        if e == 'u' then
          match hexUnit rest with
          | .ok (u, rest) => let (ps, r) := pieces n rest; (.unit u :: ps, r)
          | .error f => ([], .error f)
        else
          match simpleEscape? e with
          | some c => let (ps, r) := pieces n rest; (.char c :: ps, r)
          | none => ([], .error .unknownEscape)
    else let (ps, r) := pieces n cs; (.char c :: ps, r)

/-- The first half of a surrogate pair. -/
def isHighHalf (u : Nat) : Bool := 0xD800 ≤ u && u ≤ 0xDBFF

/-- The second half of a surrogate pair. -/
def isLowHalf (u : Nat) : Bool := 0xDC00 ≤ u && u ≤ 0xDFFF

/-- The fault met after a first half: an escape that is missing or of another kind breaks the
pair before it can be a fault of its own. -/
def afterHighHalf : Option Fault → Fault
  | none | some .controlInString | some .unknownEscape => .halfPair
  | some f => f

/-- The characters that pieces stand for, where `stop` ended them before a closing quote. -/
def characters (stop : Option Fault) : List Piece → Except Fault (List Char)
  | [] => match stop with | none => .ok [] | some f => .error f
  | .char c :: ps => (characters stop ps).map (c :: ·)
  | .unit u :: ps =>
    if isLowHalf u then .error .wrongHalf
    else if isHighHalf u then
      match ps with
      | [] => .error (afterHighHalf stop)
      | .char _ :: _ => .error .halfPair
      | .unit v :: ps =>
        if isLowHalf v then
          let code := (u - 0xD800) * 1024 + (v - 0xDC00) + 0x10000
          (characters stop ps).map (Char.ofNat code :: ·)
        else .error .wrongHalf
    else (characters stop ps).map (Char.ofNat u :: ·)

/-- A string after its opening quote. -/
def readString (cs : List Char) : Except Break (DraftText × List Char) :=
  match pieces (cs.length + 1) cs with
  | (ps, .ok rest) => .ok ((characters none ps).map String.ofList, rest)
  -- read, a fault of the pieces comes before the end; skipped, only the end counts
  | (ps, .error f) =>
    match characters (some f) ps with
    | .error g => .error ⟨g, f⟩
    | .ok _ => .error ⟨f, f⟩

/-! ## Numbers and names -/

def spanDigits (cs : List Char) : List Char × List Char :=
  (cs.takeWhile Char.isDigit, cs.dropWhile Char.isDigit)

/-- A digit must follow; at the end of the text the two descriptions differ. -/
def digitMissing : List Char → Break
  | [] => ⟨.endInValue, .invalidNumber⟩
  | _ => .plain .invalidNumber

/-- An exponent, if there is one. -/
def readExponent (cs : List Char) : Except Break (Option (Bool × List Char) × List Char) :=
  match cs with
  | e :: rest =>
    if e == 'e' || e == 'E' then
      let (negative, rest) :=
        match rest with
        | s :: r => if s == '+' then (false, r) else if s == '-' then (true, r) else (false, rest)
        | [] => (false, rest)
      let (ds, after) := spanDigits rest
      if ds.isEmpty then .error (digitMissing rest) else .ok (some (negative, ds), after)
    else .ok (none, cs)
  | [] => .ok (none, cs)

def readFraction (cs : List Char) : Except Break (List Char × List Char) :=
  match cs with
  | '.' :: rest =>
    let (ds, after) := spanDigits rest
    if ds.isEmpty then .error (digitMissing rest) else .ok (ds, after)
  | _ => .ok ([], cs)

/-- A number after its sign; a leading zero stands alone. -/
def readNumeral (negative : Bool) (cs : List Char) : Except Break (Numeral × List Char) :=
  let (whole, rest) := spanDigits cs
  if whole.isEmpty then .error (digitMissing cs)
  else if whole.head? == some '0' && 1 < whole.length then .error (.plain .invalidNumber)
  else do
    let (fraction, rest) ← readFraction rest
    let (exponent, rest) ← readExponent rest
    return (⟨negative, whole, fraction, exponent⟩, rest)

/-- The rest of a name whose first letter has been read. -/
def readName : List Char → List Char → Except Break (List Char)
  | [], cs => .ok cs
  | _ :: _, [] => .error (.plain .endInValue)
  | n :: ns, c :: cs => if c == n then readName ns cs else .error (.plain .expectedIdent)

/-! ## Values -/

def isSpace (c : Char) : Bool := c == ' ' || c == '\n' || c == '\t' || c == '\r'

/-- What is left of a text; none after a break. -/
abbrev Rest := Option (List Char)

mutual

/-- A value at the start of the text. The number bounds the depth and length of what is read. -/
def readValue : Nat → List Char → Draft × Rest
  | 0, _ => (.broken (.plain .endInValue), none)
  | n + 1, cs =>
    match cs.dropWhile isSpace with
    | [] => (.broken (.plain .endInValue), none)
    | c :: cs =>
      if c == '"' then
        match readString cs with
        | .ok (s, rest) => (.string s, some rest)
        | .error b => (.broken b, none)
      else if c == '[' then
        match cs.dropWhile isSpace with
        | [] => (.array [] (some (.plain .endInList)), none)
        | ']' :: rest => (.array [] none, some rest)
        | cs => let (items, stop, rest) := readItems n cs; (.array items stop, rest)
      else if c == '{' then
        match cs.dropWhile isSpace with
        | [] => (.object [] (some (.plain .endInObject)), none)
        | '}' :: rest => (.object [] none, some rest)
        | cs => let (members, stop, rest) := readMembers n cs; (.object members stop, rest)
      else if c == 'n' then
        match readName ['u', 'l', 'l'] cs with
        | .ok rest => (.null, some rest)
        | .error b => (.broken b, none)
      else if c == 't' then
        match readName ['r', 'u', 'e'] cs with
        | .ok rest => (.bool true, some rest)
        | .error b => (.broken b, none)
      else if c == 'f' then
        match readName ['a', 'l', 's', 'e'] cs with
        | .ok rest => (.bool false, some rest)
        | .error b => (.broken b, none)
      else if c == '-' then
        match readNumeral true cs with
        | .ok (x, rest) => (.number x, some rest)
        | .error b => (.broken b, none)
      else if c.isDigit then
        match readNumeral false (c :: cs) with
        | .ok (x, rest) => (.number x, some rest)
        | .error b => (.broken b, none)
      else (.broken (.plain .expectedValue), none)

/-- The items of an array from one that must be there. -/
def readItems : Nat → List Char → List Draft × Option Break × Rest
  | 0, _ => ([], some (.plain .endInList), none)
  | n + 1, cs =>
    match readValue n cs with
    | (v, none) => ([v], none, none)
    | (v, some rest) =>
      match rest.dropWhile isSpace with
      | [] => ([v], some (.plain .endInList), none)
      | ']' :: rest => ([v], none, some rest)
      | ',' :: rest =>
        match rest.dropWhile isSpace with
        -- read, this is a comma too many; skipped, an item is missing
        | ']' :: _ => ([v], some ⟨.trailingComma, .expectedValue⟩, none)
        | rest => let (items, stop, rest) := readItems n rest; (v :: items, stop, rest)
      | _ => ([v], some (.plain .expectedListCommaOrEnd), none)

/-- The members of an object from one that must be there. -/
def readMembers : Nat → List Char → List (DraftText × Draft) × Option Break × Rest
  | 0, _ => ([], some (.plain .endInObject), none)
  | n + 1, cs =>
    match cs with
    | '"' :: cs =>
      match readString cs with
      | .error b => ([], some b, none)
      | .ok (key, rest) =>
        match rest.dropWhile isSpace with
        | [] => ([(key, .broken (.plain .endInObject))], none, none)
        | ':' :: rest =>
          match readValue n rest with
          | (v, none) => ([(key, v)], none, none)
          | (v, some rest) =>
            match rest.dropWhile isSpace with
            | [] => ([(key, v)], some (.plain .endInObject), none)
            | '}' :: rest => ([(key, v)], none, some rest)
            | ',' :: rest =>
              match rest.dropWhile isSpace with
              | [] => ([(key, v)], some ⟨.endInValue, .endInObject⟩, none)
              | '}' :: _ => ([(key, v)], some ⟨.trailingComma, .keyMustBeString⟩, none)
              | rest =>
                let (members, stop, rest) := readMembers n rest
                ((key, v) :: members, stop, rest)
            | _ => ([(key, v)], some (.plain .expectedObjectCommaOrEnd), none)
        | _ => ([(key, .broken (.plain .expectedColon))], none, none)
    | _ => ([], some (.plain .keyMustBeString), none)

end

/-- A text read as one value, and whether something other than white space follows it. -/
structure Reading where
  value : Draft
  trailing : Bool

def Reading.ofText (s : String) : Reading :=
  let cs := s.toList
  -- each level and each part takes up at least one character
  let (v, rest) := readValue (2 * cs.length + 2) cs
  ⟨v, !((rest.getD []).dropWhile isSpace).isEmpty⟩

/-! ## Complete values -/

mutual

/-- The value of a draft without breaks; the first fault otherwise. -/
def Draft.toJson : Draft → Except Fault Json
  | .null => .ok .null
  | .bool b => .ok (.bool b)
  | .number n =>
    let exponent : List Char :=
      match n.exponent with
      | none => []
      | some (negative, ds) => 'e' :: (if negative then ['-'] else []) ++ ds
    let fraction := if n.fraction.isEmpty then [] else '.' :: n.fraction
    .ok (.number (String.ofList
      ((if n.negative then ['-'] else []) ++ n.whole ++ fraction ++ exponent)))
  | .string s => s.map .string
  | .array items stop => do
    let vs ← Draft.toJsonItems items
    match stop with
    | some b => .error b.read
    | none => .ok (.array vs)
  | .object members stop => do
    let ms ← Draft.toJsonMembers members
    match stop with
    | some b => .error b.read
    | none => .ok (.object ms)
  | .broken b => .error b.read

def Draft.toJsonItems : List Draft → Except Fault (List Json)
  | [] => .ok []
  | v :: vs => do
    let w ← v.toJson
    return w :: (← Draft.toJsonItems vs)

def Draft.toJsonMembers : List (DraftText × Draft) → Except Fault (List (String × Json))
  | [] => .ok []
  | (k, v) :: ms => do
    let key ← k
    let w ← v.toJson
    return (key, w) :: (← Draft.toJsonMembers ms)

end

def parse (s : String) : Except Fault Json := do
  let r := Reading.ofText s
  let v ← r.value.toJson
  if r.trailing then throw .trailingCharacters
  return v

end TokenKeeper.Json
