import TokenKeeper.Yaml.Found
import TokenKeeper.Yaml.Node
/-!
# Reading nodes

A node is read as what its place asks for: a text, a truth value, a count, one of several names,
or a record. Reading goes through the document once and stops at the first misfit, which names its
place. Following aliases is bounded, and so is the depth of nested collections.
-/
namespace TokenKeeper.Yaml

/-- One step from a collection to a part of it. -/
inductive Step where
  | key (name : List Char)
  | unknownKey
  | index (i : Nat)
deriving DecidableEq

/-- The way from the root to a node. -/
abbrev Path := List Step

/-- The path as messages write it; the root is a dot. -/
def Path.text (p : Path) : String :=
  let below (parent : String) : String := if parent == "." then "" else parent ++ "."
  let add (parent : String) : Step → String
    | .key name => below parent ++ String.ofList name
    | .unknownKey => below parent ++ "?"
    | .index i => parent ++ "[" ++ toString i ++ "]"
  p.foldl add "."

/-- How a node differs from what its place asks for. -/
inductive Misfit where
  | kind (found expected : String)
  | value (found : List Char) (expected : String)
  | unknownName (found : List Char) (names : List String)
  | missing (field : String)
  | duplicate (field : String)
  /-- A tag of the document's own where no choice is asked for. -/
  | tagged

def alternatives (names : List String) : String :=
  " or ".intercalate (names.map fun n => "\x60" ++ n ++ "\x60")

def Misfit.message : Misfit → String
  | kind found expected => "invalid type: " ++ found ++ ", expected " ++ expected
  | value found expected =>
    "invalid value: string " ++ Text.quoted (String.ofList found) ++ ", expected " ++ expected
  | unknownName found names =>
    "unknown variant \x60" ++ String.ofList found ++ "\x60, expected " ++ alternatives names
  | missing field => "missing field \x60" ++ field ++ "\x60"
  | duplicate field => "duplicate field \x60" ++ field ++ "\x60"
  | tagged => "a tag where no choice is asked for"

/-- Why a document cannot be read. -/
inductive Unread where
  | fault (f : Fault)
  | misfit (path : Path) (m : Misfit)

/-- The reason in words, where the document itself is sound. -/
def Unread.message? : Unread → Option String
  | fault _ => none
  | misfit _ .tagged => none
  | misfit [] m => some m.message
  | misfit path m => some (path.text ++ ": " ++ m.message)

/-- Reading keeps count of the aliases followed so far. -/
abbrev Read := StateT Nat (Except Unread)

/-- How many collections may lie within each other. -/
def maxDepth : Nat := 128

/-- How many aliases may be followed for each event of the document. -/
def aliasesPerEvent : Nat := 100

/-- The place that is read: the document around it, the way to it, and how many collections may
still be opened. -/
structure Place where
  document : Document
  path : Path
  depth : Nat

namespace Place

def part (p : Place) (s : Step) : Place := { p with path := p.path ++ [s] }

/-- The collection around the node that is read. -/
def around (p : Place) : Place := { p with path := p.path.dropLast }

/-- Inside the collection that is read. -/
def enter (p : Place) : Read Place :=
  match p.depth with
  | 0 => throw (.fault .tooDeep)
  | d + 1 => return { p with depth := d }

def refuse {α : Type} (p : Place) (m : Misfit) : Read α := throw (.misfit p.path m)

/-- The text breaks off here. -/
def breakOff {α : Type} (p : Place) : Read α :=
  throw (.fault (p.document.fault.getD .endOfStream))

/-- The node itself, behind an alias if it is one. -/
def follow (p : Place) (n : Node) : Read Node :=
  match n with
  | .alias number => do
    let followed ← get
    set (followed + 1)
    if p.document.size * aliasesPerEvent < followed + 1 then throw (.fault .tooManyAliases)
    else return p.document.find number
  | _ => return n

/-- What the node holds is not what is expected. -/
def mismatch {α : Type} (p : Place) (n : Node) (expected : String) : Read α :=
  match n with
  | .scalar tag text style =>
    match Found.ofScalar tag text style with
    | .ok f => p.refuse (.kind f.describe expected)
    | .error wanted => p.refuse (.value text wanted)
  | .sequence .. => p.refuse (.kind Found.sequence.describe expected)
  | .mapping .. => p.refuse (.kind Found.mapping.describe expected)
  | .alias _ | .missing => p.breakOff
  | .void => throw (.fault .endOfStream)

def readTextAs (p : Place) (expected : String) (n : Node) : Read (List Char) := do
  match ← p.follow n with
  | .scalar _ text _ => return text
  | n => p.mismatch n expected

/-- A text: a scalar of any spelling. -/
def readText (p : Place) (n : Node) : Read String :=
  String.ofList <$> p.readTextAs "a string" n

/-- Whether a scalar may spell a value of the tag's kind: a plain one may, and a literal block that
carries the tag. -/
def maySpell (tag : Option (List Char)) (style : Style) (core : String) : Bool :=
  style == .plain || (style == .literal && tag == some (coreTag core))

/-- A truth value. -/
def readFlag (p : Place) (n : Node) : Read Bool := do
  let n ← p.follow n
  match n with
  | .scalar tag text style =>
    match if maySpell tag style "bool" then flag? text else none with
    | some b => return b
    | none => p.mismatch n "a boolean"
  | _ => p.mismatch n "a boolean"

/-- A whole number of 64 bits that is not negative. -/
def readCount (p : Place) (n : Node) : Read Nat := do
  let n ← p.follow n
  match n with
  | .scalar tag text style =>
    match if maySpell tag style "int" then natural? largest64 text else none with
    | some i => return i
    | none => p.mismatch n "u64"
  | _ => p.mismatch n "u64"

/-- What may be left out: null and an empty plain scalar stand for nothing. A tag that asks for null
in vain is a misfit of the collection around the node. -/
def readOption {α : Type} (p : Place) (read : Node → Read α) (n : Node) : Read (Option α) := do
  let n ← p.follow n
  match n with
  | .scalar none text .plain =>
    if text.isEmpty || isNull text then return none else some <$> read n
  | .scalar (some tag) text .plain =>
    if tag != coreTag "null" then some <$> read n
    else if isNull text then return none
    else p.around.refuse (.value text "null")
  | .missing => p.breakOff
  | .void => return none
  | _ => some <$> read n

/-- Nothing but null may stand behind a name that is given as a tag. -/
def readUnit (p : Place) (n : Node) : Read Unit := do
  match n with
  | .scalar _ text style =>
    if style == .plain && (text.isEmpty || isNull text) then return ()
    else p.refuse (.value text "null")
  | n => p.mismatch n "unit"

def readChoice {α : Type} (p : Place) (choices : List (String × α)) (n : Node) : Read α := do
  let pick (p : Place) (name : List Char) : Read α :=
    match choices.lookup (String.ofList name) with
    | some a => return a
    | none => p.refuse (.unknownName name (choices.map Prod.fst))
  let tagged (name : List Char) (n : Node) : Read α := do
    let a ← pick p.around name
    p.readUnit n
    return a
  let n ← p.follow n
  match n with
  | .scalar tag text _ =>
    match localTag? tag with
    | some name => tagged name n
    | none => pick p text
  | .sequence tag _ | .mapping tag _ =>
    match localTag? tag with
    | some name => tagged name n
    | none => p.mismatch n "a YAML tag starting with '!'"
  | _ => p.mismatch n ""

/-- Skips a node; aliases are not followed. -/
def skip (p : Place) (n : Node) : Read Unit :=
  if n.isCut then p.breakOff else return ()

/-- Where the value behind a key stands: a key that is an alias or a collection has no name. -/
def value (p : Place) (key : Node) : Place :=
  match key with
  | .scalar _ text _ => p.part (.key text)
  | _ => p.part .unknownKey

/-- Reads a node without expecting anything; of a collection only the kind is kept. -/
def readAny (document : Document) : Nat → Path → Node → Read Found
  | depth, path, n => do
    let p : Place := ⟨document, path, depth⟩
    let n ← p.follow n
    match n with
    | .scalar tag text style =>
      if (localTag? tag).isSome then p.refuse .tagged
      else
        match Found.ofScalar tag text style with
        | .ok (.wide i) => p.refuse (.kind (Found.wide i).describe "any value")
        | .ok f => return f
        | .error wanted => p.refuse (.value text wanted)
    | .sequence tag items =>
      if (localTag? tag).isSome then p.refuse .tagged
      else
        match depth with
        | 0 => throw (.fault .tooDeep)
        | d + 1 =>
          items.zipIdx.forM fun (item, i) => do
            let _ ← readAny document d (path ++ [.index i]) item
          return .sequence
    | .mapping tag entries =>
      if (localTag? tag).isSome then p.refuse .tagged
      else
        match depth with
        | 0 => throw (.fault .tooDeep)
        | d + 1 =>
          entries.forM fun (key, v) => do
            -- a key is read in the place of the mapping, its value in the place behind the key
            let _ ← readAny document d path key
            let _ ← readAny document d (p.value key).path v
          return .mapping
    | .alias _ | .missing => p.breakOff
    | .void => return .null
termination_by structural depth => depth

end Place

/-- A field of a record: its name, whether it has to be there, and how its value becomes part of
the record. -/
structure RecordField (σ : Type) where
  name : String
  required : Bool
  read : Place → Node → σ → Read σ

/-- A field whose value is put into the record. -/
def RecordField.of {σ α : Type} (name : String) (required : Bool) (read : Place → Node → Read α)
    (put : σ → α → σ) : RecordField σ :=
  ⟨name, required, fun p n s => put s <$> read p n⟩

namespace Place

/-- Reads the entries of a record one after the other; `seen` names the fields that have been read,
and `other` takes the entries that are none of the fields. -/
def readEntries {σ : Type} (p : Place) (fields : List (RecordField σ))
    (other : Place → List Char → Node → σ → Read σ) :
    List (Node × Node) → List String → σ → Read σ
  | [], seen, s =>
    match fields.find? fun f => f.required && !seen.contains f.name with
    | some f => p.refuse (.missing f.name)
    | none => return s
  | (key, v) :: rest, seen, s => do
    let name ← p.readTextAs "field identifier" key
    let inside := p.value key
    match fields.find? fun f => f.name == String.ofList name with
    | some f =>
      if seen.contains f.name then p.refuse (.duplicate f.name)
      else readEntries p fields other rest (f.name :: seen) (← f.read inside v s)
    | none => readEntries p fields other rest seen (← other inside name v s)

/-- A record that begins as `s`: a mapping, or an empty plain scalar if it has no entries. -/
def readRecord {σ : Type} (p : Place) (title : String) (fields : List (RecordField σ))
    (other : Place → List Char → Node → σ → Read σ) (s : σ) (n : Node) : Read σ := do
  let n ← p.follow n
  match n with
  | .mapping _ entries => do
    let inside ← p.enter
    inside.readEntries fields other entries [] s
  | .void | .scalar _ [] .plain => p.readEntries fields other [] [] s
  | _ => p.mismatch n ("struct " ++ title)

/-- Entries that are no field of the record are skipped. -/
def skipOther {σ : Type} (p : Place) (_ : List Char) (n : Node) (s : σ) : Read σ := do
  p.skip n
  return s

end Place

/-- Reads a text as one document. What is wrong with the text behind the part that is read counts
only if that part is in order. -/
def read {α : Type} (root : Place → Node → Read α) (text : String) : Except Unread α := do
  let d := Document.ofText text.toList
  let (a, _) ← (root ⟨d, [], maxDepth⟩ d.root).run 0
  match d.fault with
  | some f => throw (.fault f)
  | none => if d.more then throw (.fault .severalDocuments) else return a

end TokenKeeper.Yaml
