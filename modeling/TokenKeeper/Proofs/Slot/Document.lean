import TokenKeeper.Proofs.Slot.Events
import TokenKeeper.Proofs.Slot.Tokens
import TokenKeeper.Yaml.Node

/-!
# The documents of two texts that differ in one word

Trees are built without a look at the texts of scalars (`Builder.run_put`), so the document of the one
text is the document of the other with the value in the word's place (`Slot.ofText_put`). Both texts
have to be in order up to their ends: where a text breaks off depends on what is in it.
-/

namespace TokenKeeper.Yaml

variable {s : Slot}

namespace Slot

mutual

/-- The value in place of the word, in a node. -/
def putNode (s : Slot) : Node → Node
  | .scalar tag text style => .scalar tag (s.fill text style) style
  | .alias number => .alias number
  | .sequence tag items => .sequence tag (s.putItems items)
  | .mapping tag entries => .mapping tag (s.putEntries entries)
  | .missing => .missing
  | .void => .void

def putItems (s : Slot) : List Node → List Node
  | [] => []
  | n :: ns => s.putNode n :: s.putItems ns

def putEntries (s : Slot) : List (Node × Node) → List (Node × Node)
  | [] => []
  | (k, v) :: es => (s.putNode k, s.putNode v) :: s.putEntries es

end

theorem putItems_eq (s : Slot) (ns : List Node) : s.putItems ns = ns.map s.putNode := by
  induction ns with
  | nil => rw [putItems, List.map_nil]
  | cons n ns ih => rw [putItems, List.map_cons, ih]

def putEntry (s : Slot) (e : Node × Node) : Node × Node := (s.putNode e.1, s.putNode e.2)

theorem putEntries_eq (s : Slot) (es : List (Node × Node)) : s.putEntries es = es.map s.putEntry := by
  induction es with
  | nil => rw [putEntries, List.map_nil]
  | cons e es ih => rw [putEntries, List.map_cons, ih, putEntry]

def putAnchored (s : Slot) (a : Anchored) : Anchored := { a with node := s.putNode a.node }

/-- The value in place of the word, in a document. -/
def putDocument (s : Slot) (d : Document) : Document :=
  { d with root := s.putNode d.root, anchored := d.anchored.map s.putAnchored }

def putCollection (s : Slot) : Collection → Collection
  | .sequence tag items => .sequence tag (items.map s.putNode)
  | .mapping tag entries key => .mapping tag (entries.map s.putEntry) (key.map s.putNode)

def putBuilder (s : Slot) (b : Builder) : Builder :=
  { b with
    collections := b.collections.map fun c => (s.putCollection c.1, c.2)
    anchored := b.anchored.map s.putAnchored
    root := b.root.map s.putNode }

end Slot

namespace Collection

theorem add_put (s : Slot) (c : Collection) (n : Node) :
    (s.putCollection c).add (s.putNode n) = s.putCollection (c.add n) := by
  cases c with
  | sequence tag items => rfl
  | mapping tag entries key => cases key <;> rfl

theorem close_put (s : Slot) (c : Collection) : (s.putCollection c).close = s.putNode c.close := by
  cases c with
  | sequence tag items =>
    rw [close, Slot.putNode, Slot.putItems_eq, List.map_reverse]
    rfl
  | mapping tag entries key =>
    rw [close, Slot.putNode, Slot.putEntries_eq, List.map_reverse]
    rfl

theorem cutOff_put (s : Slot) (c : Collection) : (s.putCollection c).cutOff = s.putNode c.cutOff := by
  cases c with
  | sequence tag items =>
    rw [cutOff, Slot.putNode, Slot.putItems_eq, List.map_append, List.map_reverse]
    simp [Slot.putCollection, cutOff, Slot.putNode]
  | mapping tag entries key =>
    rw [cutOff, Slot.putNode, Slot.putEntries_eq, List.map_append, List.map_reverse]
    cases key <;> simp [Slot.putCollection, cutOff, Slot.putNode, Slot.putEntry]

end Collection

namespace Builder

theorem add_put (s : Slot) (b : Builder) (n : Node) (mark : Option (Nat × Nat)) :
    (s.putBuilder b).add (s.putNode n) mark = s.putBuilder (b.add n mark) := by
  obtain ⟨_ | ⟨⟨c, m⟩, cs⟩, names, anchored, root, size⟩ := b
  · cases mark <;> rfl
  · have hadd := c.add_put s n
    cases mark <;> simp [add, Slot.putBuilder, hadd, Slot.putAnchored]

theorem name_put (s : Slot) (b : Builder) (anchor : Option (List Char)) :
    (s.putBuilder b).name anchor = (s.putBuilder (b.name anchor).1, (b.name anchor).2) := by
  cases anchor <;> rfl

/-- The innermost collection is complete. -/
def closed (b : Builder) : Builder :=
  match b.collections with
  | (c, mark) :: cs => { b with collections := cs }.add c.close mark
  | [] => b

theorem closed_put (s : Slot) (b : Builder) : (s.putBuilder b).closed = s.putBuilder b.closed := by
  obtain ⟨_ | ⟨⟨c, m⟩, cs⟩, names, anchored, root, size⟩ := b
  · rfl
  · have hadd := add_put s ⟨cs, names, anchored, root, size⟩ c.close m
    rw [← Collection.close_put] at hadd
    exact hadd

theorem step_put (s : Slot) (b : Builder) (e : Event) :
    (s.putBuilder b).step (s.putEvent e) = (b.step e).map s.putBuilder := by
  have hnext {b b' : Builder} (h : b' = s.putBuilder b) :
      { b' with size := b'.size + 1 } = s.putBuilder { b with size := b.size + 1 } := by
    rw [h]
    rfl
  cases e with
  | «alias» name =>
    have hadd (number : Nat) := add_put s b (.alias number) none
    have hnames : (s.putBuilder b).names = b.names := rfl
    simp only [step, Slot.putEvent, hnames]
    cases b.names.lookup name with
    | none => rfl
    | some number => exact congrArg Except.ok (hnext (hadd number))
  | scalar m text style =>
    have hadd := add_put s (b.name m.anchor).1 (.scalar m.tag text style) (b.name m.anchor).2
    simp only [step, Slot.putEvent, name_put]
    exact congrArg Except.ok (hnext hadd)
  | sequenceStart m =>
    simp only [step, Slot.putEvent, name_put]
    rfl
  | mappingStart m =>
    simp only [step, Slot.putEvent, name_put]
    rfl
  | sequenceEnd => exact congrArg Except.ok (hnext (closed_put s b))
  | mappingEnd => exact congrArg Except.ok (hnext (closed_put s b))
  | documentStart => rfl
  | documentEnd => rfl

def cut (b : Builder) : Builder :=
  match b.collections with
  | (c, mark) :: cs => { b with collections := cs }.add c.cutOff mark
  | [] => b

theorem cut_put (s : Slot) (b : Builder) : (s.putBuilder b).cut = s.putBuilder b.cut := by
  obtain ⟨_ | ⟨⟨c, m⟩, cs⟩, names, anchored, root, size⟩ := b
  · rfl
  · have hadd := add_put s ⟨cs, names, anchored, root, size⟩ c.cutOff m
    rw [← Collection.cutOff_put] at hadd
    exact hadd

theorem cutOff_put (s : Slot) (b : Builder) : (s.putBuilder b).cutOff = s.putBuilder b.cutOff := by
  have hfold (cs : List (Collection × Option (Nat × Nat))) (b : Builder) :
      (cs.map fun c => (s.putCollection c.1, c.2)).foldl (fun b _ => b.cut) (s.putBuilder b) =
        s.putBuilder (cs.foldl (fun b _ => b.cut) b) := by
    induction cs generalizing b with
    | nil => rfl
    | cons c cs ih =>
      rw [List.map_cons, List.foldl_cons, List.foldl_cons, cut_put, ih]
  exact hfold b.collections b

theorem broken_put (s : Slot) (b : Builder) (fault : Option Fault) :
    (s.putBuilder b).broken fault = s.putDocument (b.broken fault) := by
  unfold broken
  rw [cutOff_put]
  obtain ⟨cs, names, anchored, root, size⟩ := b.cutOff
  cases root <;> cases fault <;> rfl

theorem run_of_ne {e : Event} (he : e ≠ .documentEnd) (fault : Option Fault) (es : List Event)
    (b : Builder) : run fault (e :: es) b =
      match b.step e with
      | .ok b => run fault es b
      | .error f => b.broken (some f) := by
  rw [run.eq_def]
  dsimp only
  generalize b.step e = r
  cases e with
  | documentEnd => exact absurd rfl he
  | _ => cases r <;> rfl

theorem run_put (s : Slot) (fault : Option Fault) (es : List Event) (b : Builder) :
    run fault (es.map s.putEvent) (s.putBuilder b) = s.putDocument (run fault es b) := by
  induction es generalizing b with
  | nil => exact broken_put s b fault
  | cons e es ih =>
    by_cases he : e = .documentEnd
    · rw [he]
      obtain ⟨cs, names, anchored, root, size⟩ := b
      cases es <;> cases root <;> rfl
    · have he' : s.putEvent e ≠ .documentEnd := by
        cases e with
        | documentEnd => exact absurd rfl he
        | _ => exact nofun
      rw [List.map_cons, run_of_ne he', run_of_ne he, step_put]
      cases b.step e with
      | error f => exact broken_put s b (some f)
      | ok b' => exact ih b'

/-- A document without a fault, and with nothing behind it, has all the events. -/
theorem fault_of_run {fault : Option Fault} {es : List Event} {b : Builder}
    (h : (run fault es b).fault = none) (hmore : (run fault es b).more = false) : fault = none := by
  induction es generalizing b with
  | nil => exact h
  | cons e es ih =>
    by_cases he : e = .documentEnd
    · rw [he] at hmore
      exact Option.isSome_eq_false_iff.1 (Bool.or_eq_false_iff.1 hmore).2 |> Option.isNone_iff_eq_none.1
    · rw [run_of_ne he] at h hmore
      cases hstep : b.step e with
      | error f =>
        rw [hstep] at h
        cases h
      | ok b' =>
        rw [hstep] at h hmore
        exact ih h hmore

end Builder

/-- A text that is one document in order. -/
structure Document.IsWhole (d : Document) : Prop where
  fault : d.fault = none
  more : d.more = false

theorem Document.IsWhole.events {text : List Char} (h : (ofText text).IsWhole) :
    (events text).2 = none :=
  Builder.fault_of_run h.fault h.more

/-- The document of a text with a value in the place of the word. -/
theorem Slot.ofText_put {before : List Char} (hfits : s.Fits)
    (hlast : ∃ x ∈ before.getLast?, isBlank x = true)
    (honce : ∀ cs, cs <:+ before ++ (s.word ++ s.rest) → s.word <+: cs → cs = s.word ++ s.rest)
    (hfills : Fills s.word (tokens (before ++ (s.word ++ s.rest))).1)
    (h : (Document.ofText (before ++ (s.word ++ s.rest))).IsWhole)
    (h' : (Document.ofText (before ++ (s.value ++ s.rest))).IsWhole) :
    Document.ofText (before ++ (s.value ++ s.rest)) =
      s.putDocument (Document.ofText (before ++ (s.word ++ s.rest))) := by
  have hput := tokens_put hfits hlast honce (streamEnd_of_events h.events)
    (streamEnd_of_events h'.events) hfills
  have hevents := events_put hput h.events
  have hnone := h.events
  unfold Document.ofText
  rw [hevents]
  generalize events (before ++ (s.word ++ s.rest)) = r at hnone ⊢
  obtain ⟨es, fault⟩ := r
  cases hnone
  exact Builder.run_put s none es ⟨[], [], [], none, 0⟩

end TokenKeeper.Yaml
