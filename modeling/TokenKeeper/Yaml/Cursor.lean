/-!
# Places in a YAML text

The rest of a text together with its place: how many characters and lines come before it, and
its column. Layout is a matter of columns, and keys are bounded in lines and characters.
-/
namespace TokenKeeper.Yaml

/-- Why a text is not YAML, or not one document that can be read. -/
inductive Fault where
  /-- A character that may not occur in a text, or not where it stands. -/
  | character
  /-- A directive that is malformed, unknown or given twice. -/
  | directive
  /-- A name of an anchor or an alias that is malformed. -/
  | anchor
  /-- A tag that is malformed or uses an unknown handle. -/
  | tag
  /-- A scalar that is malformed or has no end. -/
  | scalar
  /-- A key without its colon, or a key, value or entry where none may stand. -/
  | key
  /-- A part that does not fit into the structure around it. -/
  | order
  /-- An alias whose anchor has not occurred. -/
  | unknownAnchor
  /-- The text ends where a value is asked for. -/
  | endOfStream
  /-- Collections nested too deeply. -/
  | tooDeep
  /-- Aliases followed too often. -/
  | tooManyAliases
  /-- More than one document. -/
  | severalDocuments
deriving DecidableEq, Repr

def isBreak (c : Char) : Bool :=
  c == '\n' || c == '\r' || c == '\u0085' || c == '\u2028' || c == '\u2029'

/-- A blank within a line. -/
def isBlank (c : Char) : Bool := c == ' ' || c == '\t'

def isName (c : Char) : Bool := c.isAlphanum || c == '_' || c == '-'

def isAllowed (c : Char) : Bool :=
  let n := c.toNat
  n == 9 || n == 10 || n == 13 || (32 ≤ n && n ≤ 126) || n == 0x85 || (0xA0 ≤ n && n ≤ 0xD7FF)
    || (0xE000 ≤ n && n ≤ 0xFFFD) || 0x10000 ≤ n

/-- The rest of a text and its place. -/
structure Cursor where
  rest : List Char
  index : Nat
  line : Nat
  column : Nat

namespace Cursor

/-- The start of a text; a byte order mark is not part of it. -/
def start (text : List Char) : Cursor :=
  match text with
  | '\uFEFF' :: cs => ⟨cs, 0, 0, 0⟩
  | cs => ⟨cs, 0, 0, 0⟩

def peek (c : Cursor) : Option Char := c.rest.head?

/-- Whether the character `n` places ahead satisfies `p`. -/
def test (c : Cursor) (n : Nat) (p : Char → Bool) : Bool := (c.rest[n]?).any p

def sees (c : Cursor) (n : Nat) (x : Char) : Bool := c.test n (· == x)

def endsAt (c : Cursor) (n : Nat) : Bool := (c.rest[n]?).isNone

/-- Whether a blank, a line break or the end stands `n` places ahead. -/
def gapAt (c : Cursor) (n : Nat) : Bool :=
  c.endsAt n || c.test n fun x => isBlank x || isBreak x

def atLineEnd (c : Cursor) : Bool := c.endsAt 0 || c.test 0 isBreak

/-- Behind the next character, which is not a line break. -/
def next (c : Cursor) : Cursor :=
  match c.rest with
  | [] => c
  | _ :: cs => ⟨cs, c.index + 1, c.line, c.column + 1⟩

def skip (c : Cursor) : Nat → Cursor
  | 0 => c
  | n + 1 => c.next.skip n

/-- The text of the next line break and the place behind it. A return, a line feed, both
together and the next-line character all mean a line feed. -/
def lineBreak (c : Cursor) : List Char × Cursor :=
  match c.rest with
  | '\r' :: '\n' :: cs => (['\n'], ⟨cs, c.index + 2, c.line + 1, 0⟩)
  | b :: cs =>
    let after : Cursor := ⟨cs, c.index + 1, c.line + 1, 0⟩
    if b == '\u2028' || b == '\u2029' then ([b], after)
    else if isBreak b then (['\n'], after)
    else ([], c)
  | [] => ([], c)

/-- The characters up to the first that fails `p`, none of them a line break, and the place
behind them. -/
def span (c : Cursor) (p : Char → Bool) : List Char × Cursor :=
  let cs := c.rest.takeWhile p
  (cs, ⟨c.rest.drop cs.length, c.index + cs.length, c.line, c.column + cs.length⟩)

def skipWhile (c : Cursor) (p : Char → Bool) : Cursor := (c.span p).2

/-- Behind the comment that may stand here. -/
def skipComment (c : Cursor) : Cursor :=
  if c.sees 0 '#' then c.skipWhile fun x => !isBreak x else c

/-- Whether a document begins or ends here: three dashes or dots at the start of a line. -/
def atDocumentMark (c : Cursor) : Bool :=
  c.column == 0 && c.gapAt 3
    && ((c.sees 0 '-' && c.sees 1 '-' && c.sees 2 '-')
      || (c.sees 0 '.' && c.sees 1 '.' && c.sees 2 '.'))

end Cursor

end TokenKeeper.Yaml
