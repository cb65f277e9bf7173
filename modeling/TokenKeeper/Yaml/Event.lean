import TokenKeeper.Yaml.Token
/-!
# Events

A row of tokens as a row of events: scalars, aliases, and the starts and ends of collections.
What may come next is kept on a stack; values that are left out become empty scalars.
-/
namespace TokenKeeper.Yaml

/-- The marks a node may carry. -/
structure Marks where
  anchor : Option (List Char)
  tag : Option (List Char)
deriving DecidableEq

inductive Event where
  | documentStart
  | documentEnd
  | alias (name : List Char)
  | scalar (marks : Marks) (text : List Char) (style : Style)
  | sequenceStart (marks : Marks)
  | sequenceEnd
  | mappingStart (marks : Marks)
  | mappingEnd
deriving DecidableEq

/-- What may come next. -/
inductive Expected where
  | document (implicit : Bool)
  | content
  | documentEnd
  | blockNode
  | blockEntry
  | bareEntry
  | blockKey
  | blockValue
  | flowEntry (first : Bool)
  | pairKey
  | pairValue
  | pairEnd
  | flowKey (first : Bool)
  | flowValue
  | flowNoValue
deriving DecidableEq

/-- The state between two events: what is expected, what is expected after that, and the tokens
to come. `handles` are the handles of tags that directives have named, `ended` is the fault that
ended the tokens. -/
structure Parser where
  now : Expected
  later : List Expected
  tokens : List Token
  handles : List (List Char × List Char)
  ended : Fault

namespace Parser

def peek (p : Parser) : Except Fault Token :=
  match p.tokens with
  | t :: _ => .ok t
  | [] => .error p.ended

def drop (p : Parser) : Parser := { p with tokens := p.tokens.drop 1 }

/-- Continues with what is expected later. -/
def pop (p : Parser) : Parser :=
  match p.later with
  | e :: es => { p with now := e, later := es }
  | [] => { p with now := .document false }

def missing : Event := .scalar ⟨none, none⟩ [] .plain

/-- The handles every document knows. -/
def standardHandles : List (List Char × List Char) :=
  [(['!'], ['!']), (['!', '!'], "tag:yaml.org,2002:".toList)]

def resolve (p : Parser) (handle suffix : List Char) : Except Fault (List Char) :=
  if handle.isEmpty then .ok suffix
  else
    match (p.handles ++ standardHandles).lookup handle with
    | some stem => .ok (stem ++ suffix)
    | none => .error .tag

/-- The marks before a node, in either order. -/
def marks (p : Parser) : Except Fault (Marks × Parser) :=
  let tagged (p : Parser) (handle suffix : List Char) (anchor : Option (List Char)) := do
    let tag ← p.resolve handle suffix
    return (⟨anchor, some tag⟩, p)
  match p.tokens with
  | .anchor a :: .tag h s :: ts => tagged { p with tokens := ts } h s (some a)
  | .tag h s :: .anchor a :: ts => tagged { p with tokens := ts } h s (some a)
  | .anchor a :: ts => .ok (⟨some a, none⟩, { p with tokens := ts })
  | .tag h s :: ts => tagged { p with tokens := ts } h s none
  | _ => .ok (⟨none, none⟩, p)

/-- A node; block collections only where `block` says so, and a sequence without indentation
only as the value or key of a mapping. -/
def node (p : Parser) (block bare : Bool) : Except Fault (Event × Parser) := do
  match ← p.peek with
  | .alias name => return (.alias name, p.drop.pop)
  | _ =>
    let (m, p) ← p.marks
    match ← p.peek with
    | .blockEntry =>
      if bare then return (.sequenceStart m, { p with now := .bareEntry })
      else if m.anchor.isSome || m.tag.isSome then return (.scalar m [] .plain, p.pop)
      else throw .order
    | .scalar text style =>
      -- an exclamation mark alone asks for no type
      let m := if m.tag == some ['!'] then { m with tag := none } else m
      return (.scalar m text style, p.drop.pop)
    | .flowSequence => return (.sequenceStart m, { p.drop with now := .flowEntry true })
    | .flowMapping => return (.mappingStart m, { p.drop with now := .flowKey true })
    | t =>
      if block && t == .blockSequence then
        return (.sequenceStart m, { p.drop with now := .blockEntry })
      else if block && t == .blockMapping then
        return (.mappingStart m, { p.drop with now := .blockKey })
      else if m.anchor.isSome || m.tag.isSome then return (.scalar m [] .plain, p.pop)
      else throw .order

/-- A node after which `next` is expected; none is there if one of `ends` comes first. -/
def nodeOr (p : Parser) (ends : List Token) (next : Expected) (block bare : Bool) :
    Except Fault (Event × Parser) := do
  if ends.contains (← p.peek) then return (missing, { p with now := next })
  else node { p with later := next :: p.later } block bare

/-- The directives before a document: a version of the language it can be read by, and handles. -/
def directives : Nat → Bool → Parser → Except Fault Parser
  | 0, _, p => .ok p
  | n + 1, versioned, p =>
    match p.tokens with
    | .version major minor :: _ =>
      if versioned || major != 1 || (minor != 1 && minor != 2) then .error .directive
      else directives n true p.drop
    | .tagHandle h s :: _ =>
      if (p.handles.lookup h).isSome then .error .directive
      else directives n versioned { p.drop with handles := p.handles ++ [(h, s)] }
    | _ => .ok p

def dropEnds (p : Parser) : Parser :=
  { p with tokens := p.tokens.dropWhile (· == .documentEnd) }

/-- The next event; none at the end of the text. -/
def step (p : Parser) : Except Fault (Option (Event × Parser)) :=
  let emit (r : Except Fault (Event × Parser)) : Except Fault (Option (Event × Parser)) :=
    r.map some
  match p.now with
  | .document implicit => do
    let p := if implicit then p else p.dropEnds
    match ← p.peek with
    | .streamEnd => return none
    | t =>
      -- only the first document may begin without a mark
      let explicit := match t with
        | .version .. | .tagHandle .. | .documentStart => true
        | _ => !implicit
      if explicit then
        let p ← directives (p.tokens.length + 1) false p
        match ← p.peek with
        | .documentStart =>
          return some (.documentStart, { p.drop with now := .content, later := [.documentEnd] })
        | _ => throw .order
      else return some (.documentStart, { p with now := .blockNode, later := [.documentEnd] })
  | .content => do
    match ← p.peek with
    | .version .. | .tagHandle .. | .documentStart | .documentEnd | .streamEnd =>
      return some (missing, p.pop)
    | _ => emit (p.node true false)
  | .documentEnd => do
    let t ← p.peek
    let p := if t == .documentEnd then p.drop else p
    return some (.documentEnd, { p with now := .document false, later := [], handles := [] })
  | .blockNode => emit (p.node true false)
  | .blockEntry => do
    match ← p.peek with
    | .blockEntry => emit (p.drop.nodeOr [.blockEntry, .blockEnd] .blockEntry true false)
    | .blockEnd => return some (.sequenceEnd, p.drop.pop)
    | _ => throw .order
  | .bareEntry => do
    match ← p.peek with
    | .blockEntry =>
      emit (p.drop.nodeOr [.blockEntry, .key, .value, .blockEnd] .bareEntry true false)
    | _ => return some (.sequenceEnd, p.pop)
  | .blockKey => do
    match ← p.peek with
    | .key => emit (p.drop.nodeOr [.key, .value, .blockEnd] .blockValue true true)
    | .blockEnd => return some (.mappingEnd, p.drop.pop)
    | _ => throw .order
  | .blockValue => do
    match ← p.peek with
    | .value => emit (p.drop.nodeOr [.key, .value, .blockEnd] .blockKey true true)
    | _ => return some (missing, { p with now := .blockKey })
  | .flowEntry first => do
    let t ← p.peek
    if t == .flowSequenceEnd then return some (.sequenceEnd, p.drop.pop)
    let p ← if first then pure p else if t == .flowEntry then pure p.drop else throw .order
    match ← p.peek with
    | .key => return some (.mappingStart ⟨none, none⟩, { p.drop with now := .pairKey })
    | .flowSequenceEnd => return some (.sequenceEnd, p.drop.pop)
    | _ => emit (node { p with later := .flowEntry false :: p.later } false false)
  | .pairKey => do
    match ← p.peek with
    | .value | .flowEntry | .flowSequenceEnd =>
      return some (missing, { p.drop with now := .pairValue })
    | _ => emit (node { p with later := .pairValue :: p.later } false false)
  | .pairValue => do
    match ← p.peek with
    | .value => emit (p.drop.nodeOr [.flowEntry, .flowSequenceEnd] .pairEnd false false)
    | _ => return some (missing, { p with now := .pairEnd })
  | .pairEnd => return some (.mappingEnd, { p with now := .flowEntry false })
  | .flowKey first => do
    let t ← p.peek
    if t == .flowMappingEnd then return some (.mappingEnd, p.drop.pop)
    let p ← if first then pure p else if t == .flowEntry then pure p.drop else throw .order
    match ← p.peek with
    | .key => emit (p.drop.nodeOr [.value, .flowEntry, .flowMappingEnd] .flowValue false false)
    | .flowMappingEnd => return some (.mappingEnd, p.drop.pop)
    | _ => emit (node { p with later := .flowNoValue :: p.later } false false)
  | .flowValue => do
    match ← p.peek with
    | .value => emit (p.drop.nodeOr [.flowEntry, .flowMappingEnd] (.flowKey false) false false)
    | _ => return some (missing, { p with now := .flowKey false })
  | .flowNoValue => do
    let _ ← p.peek
    return some (missing, { p with now := .flowKey false })

/-- All events up to the end of the text or the first fault. -/
def run : Nat → Parser → List Event × Option Fault
  | 0, _ => ([], some .order)
  | n + 1, p =>
    match p.step with
    | .error f => ([], some f)
    | .ok none => ([], none)
    | .ok (some (e, p)) => let (es, f) := run n p; (e :: es, f)

end Parser

/-- The events of a text, up to the first fault if there is one. -/
def events (text : List Char) : List Event × Option Fault :=
  let (ts, fault) := tokens text
  Parser.run (4 * ts.length + 16) ⟨.document true, [], ts, [], fault.getD .order⟩

end TokenKeeper.Yaml
