import TokenKeeper.Yaml.Scalar
/-!
# Tokens

A text as a row of tokens. Indentation is made explicit: a block collection opens with a token of
its own where its first entry is indented more than what is around it, and closes where the
indentation ends. Only the colon behind a key tells that it was one; therefore a token that may
begin a key is held back until that is decided, and on a fault the tokens held back are lost.
-/
namespace TokenKeeper.Yaml

inductive Token where
  | streamEnd
  | version (major minor : Nat)
  | tagHandle (handle stem : List Char)
  | documentStart
  | documentEnd
  | blockSequence
  | blockMapping
  | blockEnd
  | flowSequence
  | flowSequenceEnd
  | flowMapping
  | flowMappingEnd
  | blockEntry
  | flowEntry
  | key
  | value
  | alias (name : List Char)
  | anchor (name : List Char)
  | tag (handle suffix : List Char)
  | scalar (text : List Char) (style : Style)
deriving DecidableEq

/-! ## Names and tags -/

/-- The name of an anchor or alias, read behind its sign. -/
def readAnchor (c : Cursor) : Except Fault (List Char × Cursor) :=
  let (name, c) := c.span isName
  let ends := c.gapAt 0 || c.test 0 fun x => ['?', ':', ',', ']', '}', '%', '@', '\x60'].contains x
  if name.isEmpty || !ends then .error .anchor else .ok (name, c)

/-- A handle of tags, from its `!` on. In a directive it must have an end, unless it is `!`. -/
def readHandle (inDirective : Bool) (c : Cursor) : Except Fault (List Char × Cursor) :=
  if !c.sees 0 '!' then .error .tag
  else
    let (name, c) := c.next.span isName
    if c.sees 0 '!' then .ok ('!' :: name ++ ['!'], c.next)
    else if inDirective && !name.isEmpty then .error .tag
    else .ok ('!' :: name, c)

/-- The bytes behind percent signs that make one character, and how many there are. -/
def readOctets (c : Cursor) : Except Fault (Char × Cursor) :=
  let octet (c : Cursor) : Option Nat :=
    if c.sees 0 '%' then
      match (c.rest.drop 1).take 2 with
      | [a, b] => hexNumber? [a, b]
      | _ => none
    else none
  let rec more : Nat → Nat → Cursor → Except Fault (Nat × Cursor)
    | 0, v, c => .ok (v, c)
    | n + 1, v, c =>
      match octet c with
      | some o => if o / 64 == 2 then more n (v * 64 + o % 64) (c.skip 3) else .error .tag
      | none => .error .tag
  match octet c with
  | none => .error .tag
  | some o =>
    let c := c.skip 3
    let lead : Option (Nat × Nat) :=
      if o < 0x80 then some (0, o)
      else if o / 32 == 6 then some (1, o % 32)
      else if o / 16 == 14 then some (2, o % 16)
      else if o / 8 == 30 then some (3, o % 8)
      else none
    match lead with
    | none => .error .tag
    | some (n, v) => do
      let (v, c) ← more n v c
      return (Char.ofNat v, c)

/-- The characters of a tag behind its handle; `verbatim` ones may hold flow indicators. -/
def readTagText (verbatim : Bool) : Nat → Cursor → Except Fault (List Char × Cursor)
  | 0, c => .ok ([], c)
  | n + 1, c =>
    match c.peek with
    | none => .ok ([], c)
    | some x =>
      if x == '%' then do
        let (x, c) ← readOctets c
        let (text, c) ← readTagText verbatim n c
        return (x :: text, c)
      else if isName x || [';', '/', '?', ':', '@', '&', '=', '+', '$', '.', '!', '~', '*', '\'',
            '(', ')'].contains x || (verbatim && [',', '[', ']'].contains x) then do
        let (text, c) ← readTagText verbatim n c.next
        return (x :: text, c)
      else .ok ([], c)

/-- The text of a tag that continues `head`; one of them must not be empty. -/
def readTagSuffix (verbatim : Bool) (head : List Char) (c : Cursor) :
    Except Fault (List Char × Cursor) := do
  let (text, after) ← readTagText verbatim (c.rest.length + 1) c
  if head.isEmpty && after.index == c.index then throw .tag
  return (head.drop 1 ++ text, after)

def readTag (inFlow : Bool) (c : Cursor) : Except Fault (Token × Cursor) := do
  let (token, c) ←
    if c.sees 1 '<' then do
      let (suffix, c) ← readTagSuffix true [] (c.skip 2)
      if !c.sees 0 '>' then throw .tag
      pure (Token.tag [] suffix, c.next)
    else do
      let (handle, c) ← readHandle false c
      if 1 < handle.length && handle.getLast? == some '!' then do
        let (suffix, c) ← readTagSuffix false [] c
        pure (Token.tag handle suffix, c)
      else do
        let (suffix, c) ← readTagSuffix false handle c
        pure (if suffix.isEmpty then Token.tag [] ['!'] else Token.tag ['!'] suffix, c)
  if !(inFlow && c.sees 0 ',') && !c.gapAt 0 then throw .tag
  return (token, c)

/-! ## Directives -/

/-- A number of a version, of at most nine digits. -/
def readVersionNumber (c : Cursor) : Except Fault (Nat × Cursor) :=
  let (ds, c) := c.span Char.isDigit
  if ds.isEmpty || 9 < ds.length then .error .directive
  else .ok (ds.foldl (fun v d => v * 10 + (d.toNat - 48)) 0, c)

def readDirective (c : Cursor) : Except Fault (Token × Cursor) := do
  let (name, c) := c.next.span isName
  if name.isEmpty || !c.gapAt 0 then throw .directive
  let (token, c) ←
    if name == ['Y', 'A', 'M', 'L'] then do
      let (major, c) ← readVersionNumber (c.skipWhile isBlank)
      if !c.sees 0 '.' then throw .directive
      let (minor, c) ← readVersionNumber c.next
      pure (Token.version major minor, c)
    else if name == ['T', 'A', 'G'] then do
      let (handle, c) ← readHandle true (c.skipWhile isBlank)
      if !c.test 0 isBlank then throw .directive
      let (stem, c) ← readTagSuffix true [] (c.skipWhile isBlank)
      if !c.gapAt 0 then throw .directive
      pure (Token.tagHandle handle stem, c)
    else throw .directive
  let c := (c.skipWhile isBlank).skipComment
  if !c.atLineEnd then throw .directive
  return (token, c.lineBreak.2)

/-! ## The scanner -/

/-- A place where a key may have begun: the number of its first token, and whether it must be a
key because of where it stands. -/
structure Candidate where
  token : Nat
  required : Bool
  index : Nat
  line : Nat
  column : Nat

/-- The state between two tokens. `candidates` holds one place for each level of brackets and one
for the block around them, the innermost first. -/
structure Scanner where
  place : Cursor
  tokens : Array Token
  indent : Int
  indents : List Int
  flow : Nat
  keyAllowed : Bool
  candidates : List (Option Candidate)
  finished : Bool

namespace Scanner

/-- The state before the first token. -/
def start (text : List Char) : Scanner :=
  ⟨Cursor.start text, #[], -1, [], 0, true, [none], false⟩

def push (s : Scanner) (t : Token) : Scanner := { s with tokens := s.tokens.push t }

/-- Puts a token before the token number `n`. -/
def insertAt (s : Scanner) (n : Nat) (t : Token) : Scanner :=
  { s with tokens := (s.tokens.extract 0 n).push t ++ s.tokens.extract n s.tokens.size }

/-- Whether the place is too far back for a key: on another line or over 1024 characters. -/
def isStale (s : Scanner) (k : Candidate) : Bool :=
  k.line < s.place.line || k.index + 1024 < s.place.index

/-- Gives up the places that are too far back. -/
def dropStale (s : Scanner) : Except Fault Scanner :=
  if s.candidates.any fun k => k.any fun k => s.isStale k && k.required then .error .key
  else .ok { s with candidates := s.candidates.map fun k => k.filter fun k => !s.isStale k }

def dropCandidate (s : Scanner) : Except Fault Scanner :=
  match s.candidates with
  | some k :: ks => if k.required then .error .key else .ok { s with candidates := none :: ks }
  | _ => .ok s

/-- Notes that a key may begin here. -/
def saveCandidate (s : Scanner) : Except Fault Scanner :=
  if s.keyAllowed then do
    let required := s.flow == 0 && s.indent == s.place.column
    let s ← s.dropCandidate
    let k : Candidate := ⟨s.tokens.size, required, s.place.index, s.place.line, s.place.column⟩
    return { s with candidates := some k :: s.candidates.drop 1 }
  else .ok s

/-- Opens a block collection if the column is further in than the indentation. -/
def openBlock (s : Scanner) (column : Nat) (n : Nat) (t : Token) : Scanner :=
  if s.flow == 0 && s.indent < column then
    { s with indents := s.indent :: s.indents, indent := column }.insertAt n t
  else s

/-- Closes the block collections that are further in than the column. -/
def closeBlocks (s : Scanner) (column : Int) : Scanner :=
  let rec go (indent : Int) (tokens : Array Token) : List Int → Scanner
    | [] => { s with indent := indent, indents := [], tokens := tokens }
    | i :: is =>
      if column < indent then go i (tokens.push .blockEnd) is
      else { s with indent := indent, indents := i :: is, tokens := tokens }
  if s.flow == 0 then go s.indent s.tokens s.indents else s

/-- Behind the blanks, comments and line breaks before the next token. A new line outside
brackets may begin with a key. -/
def skipGap (s : Scanner) : Nat → Scanner
  | 0 => s
  | n + 1 =>
    let c := s.place
    let c := if c.index == 0 && c.sees 0 '\uFEFF' then c.next else c
    -- where a key may begin, a tab could stand for indentation and is not skipped
    let tabs := s.flow != 0 || !s.keyAllowed
    let c := (c.skipWhile fun x => x == ' ' || (tabs && x == '\t')).skipComment
    if c.test 0 isBreak then
      skipGap { s with place := c.lineBreak.2, keyAllowed := s.keyAllowed || s.flow == 0 } n
    else { s with place := c }

/-- A token of `width` characters. -/
def take (s : Scanner) (width : Nat) (t : Token) : Scanner :=
  { s with place := s.place.skip width }.push t

/-- What begins at the start of a line outside all blocks. -/
def outermost (s : Scanner) : Except Fault Scanner := do
  let s ← (s.closeBlocks (-1)).dropCandidate
  return { s with keyAllowed := false }

/-- The end of the text. -/
def takeEnd (s : Scanner) : Except Fault Scanner := do
  let s ← s.outermost
  return { s.push .streamEnd with finished := true }

/-- An opening bracket. -/
def takeOpening (s : Scanner) (t : Token) : Except Fault Scanner := do
  let s ← s.saveCandidate
  let s := { s with flow := s.flow + 1, candidates := none :: s.candidates, keyAllowed := true }
  return s.take 1 t

def takeClosing (s : Scanner) (t : Token) : Except Fault Scanner := do
  let s ← s.dropCandidate
  let s := if s.flow == 0 then s
    else { s with flow := s.flow - 1, candidates := s.candidates.drop 1 }
  return { s with keyAllowed := false }.take 1 t

/-- The comma between the entries in brackets. -/
def takeFlowEntry (s : Scanner) : Except Fault Scanner := do
  let s ← s.dropCandidate
  return { s with keyAllowed := true }.take 1 .flowEntry

/-- The dash before an entry. -/
def takeBlockEntry (s : Scanner) : Except Fault Scanner := do
  if s.flow == 0 && !s.keyAllowed then throw .key
  let s := s.openBlock s.place.column s.tokens.size .blockSequence
  let s ← s.dropCandidate
  return { s with keyAllowed := true }.take 1 .blockEntry

def takeKey (s : Scanner) : Except Fault Scanner := do
  if s.flow == 0 && !s.keyAllowed then throw .key
  let s := s.openBlock s.place.column s.tokens.size .blockMapping
  let s ← s.dropCandidate
  return { s with keyAllowed := s.flow == 0 }.take 1 .key

/-- The colon before a value; it decides that the innermost place was that of a key. -/
def takeValue (s : Scanner) : Except Fault Scanner :=
  match s.candidates with
  | some k :: ks =>
    -- the key goes in first, so that the start of its mapping comes to stand before it
    let s := (s.insertAt k.token .key).openBlock k.column k.token .blockMapping
    .ok ({ s with candidates := none :: ks, keyAllowed := false }.take 1 .value)
  | _ => do
    if s.flow == 0 && !s.keyAllowed then throw .key
    let s := s.openBlock s.place.column s.tokens.size .blockMapping
    return { s with keyAllowed := s.flow == 0 }.take 1 .value

/-- A token that may begin a key and is read by `read`. -/
def takeNode (s : Scanner) (read : Cursor → Except Fault (Token × Cursor)) :
    Except Fault Scanner := do
  let s ← s.saveCandidate
  let (t, c) ← read s.place
  return { s with keyAllowed := false, place := c }.push t

def takeQuoted (s : Scanner) (single : Bool) : Except Fault Scanner :=
  s.takeNode fun c => do
    let (text, c) ← quotedText single (c.rest.length + 1) [] c.next
    return (.scalar text (if single then .singleQuoted else .doubleQuoted), c)

/-- A block scalar; a key may follow it. -/
def takeBlockScalar (s : Scanner) (literal : Bool) : Except Fault Scanner := do
  let s ← s.dropCandidate
  let (text, c) ← blockText literal s.indent s.place.next
  return { s with keyAllowed := true, place := c }.push
    (.scalar text (if literal then .literal else .folded))

/-- A plain scalar; a key may follow it if it ended behind a line break. -/
def takePlain (s : Scanner) : Except Fault Scanner := do
  let s ← s.saveCandidate
  let (text, broken, c) ←
    plainText (s.flow != 0) (s.indent + 1) (s.place.rest.length + 1) [] Gap.empty s.place
  return { s with keyAllowed := broken, place := c }.push (.scalar text .plain)

def isIndicator (x : Char) : Bool :=
  ['-', '?', ':', ',', '[', ']', '{', '}', '#', '&', '*', '!', '|', '>', '\'', '"', '%', '@',
    '\x60'].contains x

/-- Reads the next token, together with the ends of blocks before it. -/
def fetch (s : Scanner) : Except Fault Scanner := do
  let s := s.skipGap (s.place.rest.length + 1)
  let s ← s.dropStale
  let s := s.closeBlocks s.place.column
  let c := s.place
  let inFlow := s.flow != 0
  match c.peek with
  | none => s.takeEnd
  | some x =>
    if c.column == 0 && x == '%' then do
      let s ← s.outermost
      let (t, c) ← readDirective s.place
      return { s with place := c }.push t
    else if c.atDocumentMark then do
      let s ← s.outermost
      return s.take 3 (if x == '-' then .documentStart else .documentEnd)
    else if x == '[' then s.takeOpening .flowSequence
    else if x == '{' then s.takeOpening .flowMapping
    else if x == ']' then s.takeClosing .flowSequenceEnd
    else if x == '}' then s.takeClosing .flowMappingEnd
    else if x == ',' then s.takeFlowEntry
    else if x == '-' && c.gapAt 1 then s.takeBlockEntry
    else if x == '?' && (inFlow || c.gapAt 1) then s.takeKey
    else if x == ':' && (inFlow || c.gapAt 1) then s.takeValue
    else if x == '*' then
      s.takeNode fun c => (readAnchor c.next).map fun (n, c) => (.alias n, c)
    else if x == '&' then
      s.takeNode fun c => (readAnchor c.next).map fun (n, c) => (.anchor n, c)
    else if x == '!' then s.takeNode (readTag inFlow)
    else if x == '|' && !inFlow then s.takeBlockScalar true
    else if x == '>' && !inFlow then s.takeBlockScalar false
    else if x == '\'' then s.takeQuoted true
    else if x == '"' then s.takeQuoted false
    else if !(isBlank x || isIndicator x) || (x == '-' && !c.test 1 isBlank)
        || (!inFlow && (x == '?' || x == ':') && !c.gapAt 1) then s.takePlain
    else .error .character

/-- Reads tokens until all are decided, the first `n` of which already are; returns how many are
and the fault that stopped it. -/
def run : Nat → Nat → Scanner → Nat × Scanner × Option Fault
  | 0, n, s => (n, s, some .order)
  | fuel + 1, n, s =>
    let fetchMore (s : Scanner) :=
      match s.fetch with
      | .ok s => run fuel n s
      | .error f => (n, s, some f)
    if n < s.tokens.size then
      match s.dropStale with
      | .error f => (n, s, some f)
      | .ok s =>
        -- a key may still have to be put before this token
        if s.candidates.any fun k => k.any fun k => k.token == n then fetchMore s
        else run fuel (n + 1) s
    else if s.finished then (n, s, none)
    else fetchMore s

end Scanner

/-- The tokens of a text, up to the first fault if there is one. A character that may not occur
at all is a fault before the first token. -/
def tokens (text : List Char) : List Token × Option Fault :=
  let s := Scanner.start text
  if s.place.rest.all isAllowed then
    let (n, s, fault) := s.run (8 * text.length + 16) 0
    (s.tokens.toList.take n, fault)
  else ([], some .character)

end TokenKeeper.Yaml
