import TokenKeeper.Json.Draft
import TokenKeeper.Text.Quoted
/-!
# Records in JSON texts

A schema names the fields of a record; a field may go by several spellings. A record is written
as an object, whose unknown members are skipped, or as an array of its fields in order. Checking
a draft against a schema goes through the text once and reports the first thing wrong; what it
returns are the drafts of the fields that were there, by their names.
-/
namespace TokenKeeper.Json

/-- Why a text does not hold the record asked for. -/
inductive Misfit where
  | fault (f : Fault)
  | kind (found expected : String)
  | length (found : Nat) (expected : String)
  | missing (field : String)
  | duplicate (field : String)
deriving DecidableEq, Repr

def Misfit.message : Misfit → String
  | fault f => f.message
  | kind found expected => "invalid type: " ++ found ++ ", expected " ++ expected
  | length found expected => "invalid length " ++ toString found ++ ", expected " ++ expected
  | missing field => "missing field `" ++ field ++ "`"
  | duplicate field => "duplicate field `" ++ field ++ "`"

namespace Draft

def misfit (d : Draft) (expected : String) : Misfit :=
  match d with
  | .null => .kind "null" expected
  | .bool b => .kind ("boolean `" ++ toString b ++ "`") expected
  | .number n =>
    match n.number? with
    | none => .fault .numberOutOfRange
    | some (.integer i) => .kind ("integer `" ++ toString i ++ "`") expected
    | some (.float negative x) =>
      .kind ("floating point `" ++ floatText negative x ++ "`") expected
  | .string (.ok s) => .kind ("string " ++ Text.quoted s) expected
  | .string (.error f) => .fault f
  | .array .. => .kind "sequence" expected
  | .object .. => .kind "map" expected
  | .broken b => .fault b.read

/-- A string or null. -/
def checkText : Draft → Except Misfit Unit
  | .null | .string (.ok _) => .ok ()
  | d => .error (d.misfit "a string")

/-- True, false or null. -/
def checkFlag : Draft → Except Misfit Unit
  | .null | .bool _ => .ok ()
  | d => .error (d.misfit "a boolean")

def text? : Draft → Option String
  | .string (.ok s) => some s
  | _ => none

def flag? : Draft → Option Bool
  | .bool b => some b
  | _ => none

mutual

/-- The first fault in a part that is skipped. -/
def skipFault : Draft → Option Fault
  | .broken b => some b.skipped
  | .array items stop => (skipItems items).or (stop.map Break.skipped)
  | .object members stop => (skipMembers members).or (stop.map Break.skipped)
  | _ => none

def skipItems : List Draft → Option Fault
  | [] => none
  | v :: vs => v.skipFault.or (skipItems vs)

def skipMembers : List (DraftText × Draft) → Option Fault
  | [] => none
  | (_, v) :: ms => v.skipFault.or (skipMembers ms)

end

def skip (d : Draft) : Except Misfit Unit :=
  match d.skipFault with
  | none => .ok ()
  | some f => .error (.fault f)

end Draft

/-- A field of a record: its name, the other spellings of it, whether it may be left out, and
what its value has to be. -/
structure Field where
  name : String
  spellings : List String
  optional : Bool
  check : Draft → Except Misfit Unit

/-- The fields of a record, in order, and the record's name in messages. -/
structure Schema where
  name : String
  fields : List Field

/-- The drafts of a record's fields by name. -/
abbrev Fields := List (String × Draft)

namespace Schema

def title (s : Schema) : String := "struct " ++ s.name

/-- What messages call the record where the number of its fields matters. -/
def counted (s : Schema) : String :=
  let n := s.fields.length
  s.title ++ " with " ++ toString n ++ (if n == 1 then " element" else " elements")

def field? (s : Schema) (key : String) : Option Field :=
  s.fields.find? fun f => f.name == key || f.spellings.contains key

/-- The members of an object from left to right; `seen` are the fields met so far. -/
def checkMembers (s : Schema) : Fields → List (DraftText × Draft) → Except Misfit Fields
  | seen, [] => .ok seen
  | _, (.error f, _) :: _ => .error (.fault f)
  | seen, (.ok key, v) :: ms =>
    match s.field? key with
    | none => do
      v.skip
      s.checkMembers seen ms
    | some f =>
      if (seen.lookup f.name).isSome then .error (.duplicate f.name)
      else do
        f.check v
        s.checkMembers (seen ++ [(f.name, v)]) ms

/-- The fields that cannot be left out are there. -/
def checkPresent (s : Schema) (found : Fields) : Except Misfit Fields :=
  match s.fields.find? fun f => !f.optional && (found.lookup f.name).isNone with
  | some f => .error (.missing f.name)
  | none => .ok found

/-- The items of an array against the fields in order; `n` items have been read. -/
def checkItems (s : Schema) (n : Nat) :
    List Field → List Draft → Option Break → Except Misfit Fields
  | [], [], none => .ok []
  | [], [], some b => .error (.fault (if b.read == .expectedListCommaOrEnd then .trailingCharacters
      else b.read))
  | [], _ :: _, _ => .error (.fault .trailingCharacters)
  | _ :: _, [], some b => .error (.fault b.read)
  | f :: fs, [], none =>
    if f.optional then s.checkItems (n + 1) fs [] none else .error (.length n s.counted)
  | f :: fs, v :: vs, stop => do
    f.check v
    let rest ← s.checkItems (n + 1) fs vs stop
    return (f.name, v) :: rest

/-- The fields of a record, if the draft is one. -/
def check (s : Schema) : Draft → Except Misfit Fields
  | .object members stop => do
    let found ← s.checkMembers [] members
    match stop with
    | some b => .error (.fault b.read)
    | none => s.checkPresent found
  | .array items stop => s.checkItems 0 s.fields items stop
  | d => .error (d.misfit s.title)

def read (s : Schema) (text : String) : Except Misfit Fields := do
  let r := Reading.ofText text
  let found ← s.check r.value
  if r.trailing then throw (.fault .trailingCharacters)
  return found

end Schema

namespace Field

def text (name : String) (spellings : List String) : Field :=
  ⟨name, spellings, true, Draft.checkText⟩

def flag (name : String) (spellings : List String) : Field :=
  ⟨name, spellings, true, Draft.checkFlag⟩

def record (name : String) (spellings : List String) (s : Schema) : Field :=
  ⟨name, spellings, false, fun d => (s.check d).map fun _ => ()⟩

/-- A record that may be null or left out. -/
def optionalRecord (name : String) (spellings : List String) (s : Schema) : Field :=
  ⟨name, spellings, true, fun d =>
    match d with
    | .null => .ok ()
    | d => (s.check d).map fun _ => ()⟩

end Field

namespace Fields

def text? (fs : Fields) (name : String) : Option String :=
  (fs.lookup name).bind Draft.text?

def flag? (fs : Fields) (name : String) : Option Bool :=
  (fs.lookup name).bind Draft.flag?

def record? (fs : Fields) (name : String) (s : Schema) : Option Fields :=
  (fs.lookup name).bind fun d => (s.check d).toOption

end Fields

end TokenKeeper.Json
