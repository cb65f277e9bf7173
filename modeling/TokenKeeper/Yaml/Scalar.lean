import TokenKeeper.Yaml.Cursor
/-!
# The texts of scalars

How a scalar's text is gathered from its lines: plain, in single or double quotes, or as a block.
Line breaks inside plain and quoted scalars fold: one becomes a space, of several the first is
dropped.
-/
namespace TokenKeeper.Yaml

inductive Style where
  | plain
  | singleQuoted
  | doubleQuoted
  | literal
  | folded
deriving DecidableEq, Repr

/-- What separates two words of a scalar: blanks within a line, or line breaks. -/
structure Gap where
  blanks : List Char
  first : List Char
  more : List Char
  broken : Bool

namespace Gap

def empty : Gap := ⟨[], [], [], false⟩

/-- What the gap becomes in the scalar's text. -/
def fold (g : Gap) : List Char :=
  if !g.broken then g.blanks
  else if g.first == ['\n'] then (if g.more.isEmpty then [' '] else g.more)
  else g.first ++ g.more

/-- The blanks and breaks from here on. A tab that stands for indentation before the column
`indent` is refused. -/
def read (indent : Int) : Nat → Gap → Cursor → Except Fault (Gap × Cursor)
  | 0, g, c => .ok (g, c)
  | n + 1, g, c =>
    match c.peek with
    | some x =>
      if isBlank x then
        if g.broken then
          -- blanks at the start of a line are indentation and belong to no text
          if x == '\t' && (c.column : Int) < indent then .error .scalar
          else read indent n g c.next
        else read indent n { g with blanks := g.blanks ++ [x] } c.next
      else if isBreak x then
        let (b, c) := c.lineBreak
        if g.broken then read indent n { g with more := g.more ++ b } c
        else read indent n ⟨[], b, [], true⟩ c
      else .ok (g, c)
    | none => .ok (g, c)

end Gap

/-! ## Plain scalars -/

/-- The word at the start of a plain scalar's line. Inside brackets a word ends at a comma or a
bracket, anywhere at a colon with a gap behind it. -/
def plainWord (inFlow : Bool) : Nat → Cursor → Except Fault (List Char × Cursor)
  | 0, c => .ok ([], c)
  | n + 1, c =>
    match c.peek with
    | none => .ok ([], c)
    | some x =>
      let flowMark (x : Char) : Bool := x == ',' || x == '[' || x == ']' || x == '{' || x == '}'
      if isBlank x || isBreak x then .ok ([], c)
      else if inFlow && x == ':' && c.test 1 fun y => flowMark y || y == '?' then .error .scalar
      else if (x == ':' && c.gapAt 1) || (inFlow && flowMark x) then .ok ([], c)
      else do
        let (word, c) ← plainWord inFlow n c.next
        return (x :: word, c)

/-- The words of a plain scalar; also whether it ended behind a line break. -/
def plainText (inFlow : Bool) (indent : Int) :
    Nat → List Char → Gap → Cursor → Except Fault (List Char × Bool × Cursor)
  | 0, text, g, c => .ok (text, g.broken, c)
  | n + 1, text, g, c =>
    -- a number sign within a word is a character; here it comes behind a gap
    if c.atDocumentMark || c.sees 0 '#' then .ok (text, g.broken, c)
    else do
      let (word, c) ← plainWord inFlow (c.rest.length + 1) c
      let (text, g) := if word.isEmpty then (text, g) else (text ++ g.fold ++ word, Gap.empty)
      if !(c.gapAt 0) || c.endsAt 0 then return (text, g.broken, c)
      let (g, c) ← Gap.read indent (c.rest.length + 1) g c
      if !inFlow && (c.column : Int) < indent then return (text, g.broken, c)
      plainText inFlow indent n text g c

/-! ## Quoted scalars -/

/-- The value of a hexadecimal digit. -/
def hexValue? (c : Char) : Option Nat :=
  if c.isDigit then some (c.toNat - 48)
  else if 'a' ≤ c && c ≤ 'f' then some (c.toNat - 87)
  else if 'A' ≤ c && c ≤ 'F' then some (c.toNat - 55)
  else none

def hexNumber? (cs : List Char) : Option Nat :=
  cs.foldl (fun v c => v.bind fun v => (hexValue? c).map (v * 16 + ·)) (some 0)

/-- The character a letter behind a backslash stands for. -/
def escaped? (c : Char) : Option Char :=
  match c with
  | '0' => some '\x00'
  | 'a' => some '\x07'
  | 'b' => some '\x08'
  | 't' | '\t' => some '\t'
  | 'n' => some '\n'
  | 'v' => some '\x0b'
  | 'f' => some '\x0c'
  | 'r' => some '\r'
  | 'e' => some '\x1b'
  | ' ' => some ' '
  | '"' => some '"'
  | '/' => some '/'
  | '\\' => some '\\'
  | 'N' => some '\u0085'
  | '_' => some '\u00a0'
  | 'L' => some '\u2028'
  | 'P' => some '\u2029'
  | _ => none

/-- How many hexadecimal digits follow a letter behind a backslash. -/
def escapeWidth? (c : Char) : Option Nat :=
  if c == 'x' then some 2 else if c == 'u' then some 4 else if c == 'U' then some 8 else none

/-- An escape other than that of a line break, read at its backslash. -/
def readEscape (c : Cursor) : Except Fault (Char × Cursor) :=
  match c.rest[1]? with
  | none => .error .scalar
  | some e =>
    match escaped? e, escapeWidth? e with
    | some x, _ => .ok (x, c.skip 2)
    | none, some width =>
      let ds := (c.rest.drop 2).take width
      match hexNumber? ds with
      | some n =>
        if ds.length < width || (0xD800 ≤ n && n ≤ 0xDFFF) || 0x10FFFF < n then .error .scalar
        else .ok (Char.ofNat n, c.skip (width + 2))
      | none => .error .scalar
    | none, none => .error .scalar

/-- The characters up to a gap or the closing quote; also whether an escaped line break ended
them. -/
def quotedWord (single : Bool) : Nat → Cursor → Except Fault (List Char × Bool × Cursor)
  | 0, c => .ok ([], false, c)
  | n + 1, c =>
    match c.peek with
    | none => .ok ([], false, c)
    | some x =>
      if isBlank x || isBreak x then .ok ([], false, c)
      else if single && x == '\'' && c.sees 1 '\'' then do
        let (word, escapedBreak, c) ← quotedWord single n (c.skip 2)
        return (x :: word, escapedBreak, c)
      else if x == (if single then '\'' else '"') then .ok ([], false, c)
      else if !single && x == '\\' && c.test 1 isBreak then .ok ([], true, c.next.lineBreak.2)
      else do
        let (x, c) ← if !single && x == '\\' then readEscape c else .ok (x, c.next)
        let (word, escapedBreak, c) ← quotedWord single n c
        return (x :: word, escapedBreak, c)

def quotedText (single : Bool) : Nat → List Char → Cursor → Except Fault (List Char × Cursor)
  | 0, _, _ => .error .scalar
  | n + 1, text, c =>
    if c.atDocumentMark || c.endsAt 0 then .error .scalar
    else do
      let (word, escapedBreak, c) ← quotedWord single (c.rest.length + 1) c
      let text := text ++ word
      if c.sees 0 (if single then '\'' else '"') then return (text, c.next)
      -- behind an escaped break the gap is broken from the start, and that break adds no space
      let (g, c) ← Gap.read (-1) (c.rest.length + 1) { Gap.empty with broken := escapedBreak } c
      quotedText single n (text ++ g.fold) c

/-! ## Block scalars -/

/-- What becomes of the line breaks at the end of a block scalar. -/
inductive Chomping where
  | strip
  | clip
  | keep
deriving DecidableEq

/-- The indicators behind the sign of a block scalar, in either order. -/
def blockHeader (c : Cursor) : Except Fault (Chomping × Nat × Cursor) :=
  let chomp (c : Cursor) : Option (Chomping × Cursor) :=
    if c.sees 0 '+' then some (.keep, c.next)
    else if c.sees 0 '-' then some (.strip, c.next)
    else none
  let width (c : Cursor) : Except Fault (Nat × Cursor) :=
    match c.peek with
    | some x =>
      if x == '0' then .error .scalar
      else if x.isDigit then .ok (x.toNat - 48, c.next)
      else .ok (0, c)
    | none => .ok (0, c)
  match chomp c with
  | some (chomping, c) => do
    let (increment, c) ← width c
    return (chomping, increment, c)
  | none => do
    let (increment, c) ← width c
    match if increment == 0 then none else chomp c with
    | some (chomping, c) => return (chomping, increment, c)
    | none => return (.clip, increment, c)

/-- The empty lines from here on, and the greatest column they reach. As long as the indentation
is not known (`0`), any number of spaces belongs to it. -/
def blockBreaks (indent : Nat) :
    Nat → List Char → Nat → Cursor → Except Fault (List Char × Nat × Cursor)
  | 0, breaks, widest, c => .ok (breaks, widest, c)
  | n + 1, breaks, widest, c =>
    let spaces := (c.rest.takeWhile (· == ' ')).length
    let c := c.skip (if indent == 0 then spaces else min spaces (indent - c.column))
    let widest := max widest c.column
    if (indent == 0 || c.column < indent) && c.sees 0 '\t' then .error .scalar
    else if c.test 0 isBreak then
      let (b, c) := c.lineBreak
      blockBreaks indent n (breaks ++ b) widest c
    else .ok (breaks, widest, c)

/-- The lines of a block scalar. `last` is the break of the line before, `breaks` are those of
the empty lines since; a folded scalar joins lines that do not begin with a blank. -/
def blockLines (literal : Bool) (chomping : Chomping) (indent : Nat) :
    Nat → List Char → List Char → List Char → Bool → Cursor → Except Fault (List Char × Cursor)
  | 0, text, _, _, _, c => .ok (text, c)
  | n + 1, text, last, breaks, blankLine, c =>
    if c.column == indent && !c.endsAt 0 then do
      let startsBlank := c.test 0 isBlank
      let joint :=
        if !literal && last == ['\n'] && !blankLine && !startsBlank then
          (if breaks.isEmpty then [' '] else [])
        else last
      let (line, c) := c.span fun x => !isBreak x
      let (b, c) := c.lineBreak
      let (later, _, c) ← blockBreaks indent (c.rest.length + 1) [] 0 c
      blockLines literal chomping indent n (text ++ joint ++ breaks ++ line) b later startsBlank c
    else
      match chomping with
      | .strip => .ok (text, c)
      | .clip => .ok (text ++ last, c)
      | .keep => .ok (text ++ last ++ breaks, c)

/-- A block scalar behind its sign, inside a collection indented by `parent`. -/
def blockText (literal : Bool) (parent : Int) (c : Cursor) : Except Fault (List Char × Cursor) := do
  let (chomping, increment, c) ← blockHeader c
  let c := (c.skipWhile isBlank).skipComment
  if !c.atLineEnd then throw .scalar
  let c := c.lineBreak.2
  let given : Nat := if increment == 0 then 0 else (max 0 parent).toNat + increment
  let (breaks, widest, c) ← blockBreaks given (c.rest.length + 1) [] 0 c
  -- without an indicator the text is as far in as its first lines reach
  let indent := if given == 0 then max widest (max 1 (parent + 1).toNat) else given
  blockLines literal chomping indent (c.rest.length + 1) [] [] breaks false c

end TokenKeeper.Yaml
