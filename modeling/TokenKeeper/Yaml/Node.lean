import TokenKeeper.Yaml.Event
/-!
# Documents

The first document of a text as a tree. A text may break off: where its events end too early the
tree has a leaf `missing`, so that what comes before can still be read. Aliases stay leaves; the
nodes that carry anchors are listed beside the tree.
-/
namespace TokenKeeper.Yaml

/-- A node of a document. An alias leads to an anchor's number; `void` stands for the root of a
text without a document. -/
inductive Node where
  | scalar (tag : Option (List Char)) (text : List Char) (style : Style)
  | alias (anchor : Nat)
  | sequence (tag : Option (List Char)) (items : List Node)
  | mapping (tag : Option (List Char)) (entries : List (Node × Node))
  | missing
  | void

namespace Node

mutual

/-- Whether the text breaks off inside the node. -/
def isCut : Node → Bool
  | .missing => true
  | .sequence _ items => cutItems items
  | .mapping _ entries => cutEntries entries
  | _ => false

def cutItems : List Node → Bool
  | [] => false
  | n :: ns => n.isCut || cutItems ns

def cutEntries : List (Node × Node) → Bool
  | [] => false
  | (k, v) :: es => k.isCut || v.isCut || cutEntries es

end

end Node

/-- A node with an anchor: the anchor's number and the place of the node among the events. -/
structure Anchored where
  number : Nat
  place : Nat
  node : Node

/-- The first document of a text. `fault` is what is wrong behind its last event, `size` counts its
events, and `more` tells whether the text goes on after it. -/
structure Document where
  root : Node
  anchored : List Anchored
  fault : Option Fault
  size : Nat
  more : Bool

/-- The node a number leads to: the one that was given the number last. -/
def Document.find (d : Document) (number : Nat) : Node :=
  let latest (best : Option Anchored) (a : Anchored) : Option Anchored :=
    -- two anchors may have one number, and the later place wins
    if a.number != number then best
    else
      match best with
      | some b => if b.place < a.place then some a else some b
      | none => some a
  match d.anchored.foldl latest none with
  | some a => a.node
  | none => .missing

/-- A collection that is not complete yet, its parts in reverse order. -/
inductive Collection where
  | sequence (tag : Option (List Char)) (items : List Node)
  | mapping (tag : Option (List Char)) (entries : List (Node × Node)) (key : Option Node)

namespace Collection

def add (c : Collection) (n : Node) : Collection :=
  match c with
  | sequence tag items => sequence tag (n :: items)
  | mapping tag entries none => mapping tag entries (some n)
  | mapping tag entries (some k) => mapping tag ((k, n) :: entries) none

def close : Collection → Node
  | sequence tag items => .sequence tag items.reverse
  | mapping tag entries _ => .mapping tag entries.reverse

def cutOff : Collection → Node
  | sequence tag items => .sequence tag (items.reverse ++ [.missing])
  | mapping tag entries key => .mapping tag (entries.reverse ++ [(key.getD .missing, .missing)])

end Collection

/-- The state between two events of a document: the open collections, innermost first, each with
its anchor's number and place; the numbers of the names of anchors; and what is complete. -/
structure Builder where
  collections : List (Collection × Option (Nat × Nat))
  names : List (List Char × Nat)
  anchored : List Anchored
  root : Option Node
  size : Nat

namespace Builder

/-- A node is complete. -/
def add (b : Builder) (n : Node) (mark : Option (Nat × Nat)) : Builder :=
  let b :=
    match mark with
    | some (number, place) => { b with anchored := ⟨number, place, n⟩ :: b.anchored }
    | none => b
  match b.collections with
  | [] => { b with root := some n }
  | (c, m) :: cs => { b with collections := (c.add n, m) :: cs }

/-- Gives an anchor its number: how many names are known. A name that is known gets a new number
and the next name gets the same one. -/
def name (b : Builder) (anchor : Option (List Char)) : Builder × Option (Nat × Nat) :=
  match anchor with
  | none => (b, none)
  | some a =>
    let number := b.names.length
    ({ b with names := (a, number) :: b.names.filter (·.1 != a) }, some (number, b.size))

/-- One event further; a fault if it is an alias without an anchor. -/
def step (b : Builder) (e : Event) : Except Fault Builder :=
  let next (b : Builder) : Builder := { b with size := b.size + 1 }
  let opened (m : Marks) (c : Collection) : Builder :=
    let (b, mark) := b.name m.anchor
    { b with collections := (c, mark) :: b.collections }
  let closed : Builder :=
    match b.collections with
    | (c, mark) :: cs => { b with collections := cs }.add c.close mark
    | [] => b
  match e with
  | .alias a =>
    match b.names.lookup a with
    | some number => .ok (next (b.add (.alias number) none))
    | none => .error .unknownAnchor
  | .scalar m text style =>
    let (b, mark) := b.name m.anchor
    .ok (next (b.add (.scalar m.tag text style) mark))
  | .sequenceStart m => .ok (next (opened m (.sequence m.tag [])))
  | .mappingStart m => .ok (next (opened m (.mapping m.tag [] none)))
  | .sequenceEnd | .mappingEnd => .ok (next closed)
  | .documentStart | .documentEnd => .ok b

/-- Closes the open collections where the text breaks off. -/
def cutOff (b : Builder) : Builder :=
  let cut (b : Builder) (_ : Collection × Option (Nat × Nat)) : Builder :=
    match b.collections with
    | (c, mark) :: cs => { b with collections := cs }.add c.cutOff mark
    | [] => b
  b.collections.foldl cut b

/-- The document that ends with a fault, or because the text is at its end. -/
def broken (b : Builder) (fault : Option Fault) : Document :=
  let b := b.cutOff
  ⟨b.root.getD (if fault.isSome then .missing else .void), b.anchored, fault, b.size, false⟩

/-- The document that begins with the events. -/
def run (fault : Option Fault) : List Event → Builder → Document
  | [], b => b.broken fault
  | e :: es, b =>
    match e, b.step e with
    | .documentEnd, _ =>
      ⟨b.root.getD .void, b.anchored, none, b.size, !es.isEmpty || fault.isSome⟩
    | _, .ok b => run fault es b
    | _, .error f => b.broken (some f)

end Builder

def Document.ofText (text : List Char) : Document :=
  let (es, fault) := events text
  Builder.run fault es ⟨[], [], [], none, 0⟩

end TokenKeeper.Yaml
