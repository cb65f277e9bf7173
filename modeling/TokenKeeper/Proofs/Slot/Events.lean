import Mathlib.Data.List.Basic
import TokenKeeper.Proofs.Slot.Twin
import TokenKeeper.Yaml.Event

/-!
# The events of two texts that differ in one word

No step from tokens to events looks at the text of a scalar (`Parser.step_put`). So if the tokens are
the same up to the value in the word's place, the events are (`events_put`).
-/

namespace TokenKeeper.Yaml

variable {s : Slot} {e : Fault} {p q : Parser} {t : Token}

namespace Slot

/-- The value in place of the word, in an event. -/
def putEvent (s : Slot) : Event → Event
  | .scalar m text style => .scalar m (s.fill text style) style
  | e => e

/-- The value in place of the word, in the tokens to come. What comes behind them may differ. -/
def putParser (s : Slot) (e : Fault) (p : Parser) : Parser :=
  { p with tokens := p.tokens.map s.put, ended := e }

def putStep (s : Slot) (e : Fault) (r : Event × Parser) : Event × Parser :=
  (s.putEvent r.1, s.putParser e r.2)

end Slot

namespace Parser

theorem dropEnds_put (s : Slot) (e : Fault) (p : Parser) :
    (s.putParser e p).dropEnds = s.putParser e p.dropEnds := by
  obtain ⟨now, later, ts, handles, ended⟩ := p
  simp only [dropEnds, Slot.putParser, Parser.mk.injEq, true_and, and_true]
  induction ts with
  | nil => rfl
  | cons t ts ih =>
    cases t with
    | documentEnd => exact ih
    | _ => rfl

theorem marks_put (s : Slot) (e : Fault) (p : Parser) :
    (s.putParser e p).marks = p.marks.map fun r => (r.1, s.putParser e r.2) := by
  obtain ⟨now, later, ts, handles, ended⟩ := p
  have htagged (ts : List Token) (h t : List Char) (a : Option (List Char)) :
      (do
        let tag ← resolve ⟨now, later, ts.map s.put, handles, e⟩ h t
        return (⟨a, some tag⟩, ⟨now, later, ts.map s.put, handles, e⟩) :
          Except Fault (Marks × Parser)) =
      (do
        let tag ← resolve ⟨now, later, ts, handles, ended⟩ h t
        return (⟨a, some tag⟩, ⟨now, later, ts, handles, ended⟩) :
          Except Fault (Marks × Parser)).map fun r => (r.1, s.putParser e r.2) := by
    have hsame : resolve ⟨now, later, ts.map s.put, handles, e⟩ h t =
      resolve ⟨now, later, ts, handles, ended⟩ h t := rfl
    rw [hsame]
    cases resolve ⟨now, later, ts, handles, ended⟩ h t <;> rfl
  cases ts with
  | nil => rfl
  | cons t ts =>
    cases t with
    | anchor a =>
      cases ts with
      | nil => rfl
      | cons t ts =>
        cases t with
        | tag h t => exact htagged ts _ _ _
        | _ => rfl
    | tag h t =>
      cases ts with
      | nil => exact htagged [] _ _ _
      | cons t' ts =>
        cases t' with
        | anchor a => exact htagged ts _ _ _
        | _ => exact htagged (_ :: ts) _ _ _
    | _ => rfl

/-- A node behind its marks. -/
def marked (block bare : Bool) (m : Marks) (p : Parser) : Except Fault (Event × Parser) := do
  match ← p.peek with
  | .blockEntry =>
    if bare then return (.sequenceStart m, { p with now := .bareEntry })
    else if m.anchor.isSome || m.tag.isSome then return (.scalar m [] .plain, p.pop)
    else throw .order
  | .scalar text style =>
    let m := if m.tag == some ['!'] then { m with tag := none } else m
    return (.scalar m text style, p.drop.pop)
  | .flowSequence => return (.sequenceStart m, { p.drop with now := .flowEntry true })
  | .flowMapping => return (.mappingStart m, { p.drop with now := .flowKey true })
  | t =>
    if block && t == .blockSequence then
      return (.sequenceStart m, { p.drop with now := .blockEntry })
    else if block && t == .blockMapping then
      return (.mappingStart m, { p.drop with now := .blockKey })
    else if m.anchor.isSome || m.tag.isSome then return (.scalar m [] .plain, p.pop)
    else throw .order

/-- A node is an alias, or marks and what is behind them. -/
theorem node_eq (p : Parser) (block bare : Bool) (h : ∀ name, p.tokens.head? ≠ some (.alias name)) :
    p.node block bare =
      p.peek.bind fun _ => p.marks.bind fun r => r.2.marked block bare r.1 := by
  obtain ⟨now, later, ts, handles, ended⟩ := p
  cases ts with
  | nil => rfl
  | cons t ts =>
    cases t with
    | «alias» name => exact absurd rfl (h name)
    | _ => rfl

theorem marked_put (s : Slot) (e : Fault) (p : Parser) (block bare : Bool) (m : Marks) :
    ((s.putParser e p).marked block bare m).toOption =
      (p.marked block bare m).toOption.map (s.putStep e) := by
  obtain ⟨now, later, ts, handles, ended⟩ := p
  cases ts with
  | nil => rfl
  | cons t ts =>
    obtain ⟨anchor, tag⟩ := m
    cases t <;> cases later <;> cases block <;> cases bare <;> cases anchor <;> cases tag <;> rfl

theorem node_put (s : Slot) (e : Fault) (p : Parser) (block bare : Bool) :
    ((s.putParser e p).node block bare).toOption =
      (p.node block bare).toOption.map (s.putStep e) := by
  have hmarked : ((s.putParser e p).marks.bind fun r => r.2.marked block bare r.1).toOption =
      (p.marks.bind fun r => r.2.marked block bare r.1).toOption.map (s.putStep e) := by
    rw [marks_put]
    cases p.marks with
    | error => rfl
    | ok r => exact marked_put s e r.2 block bare r.1
  obtain ⟨now, later, ts, handles, ended⟩ := p
  cases ts with
  | nil => rfl
  | cons t ts =>
    cases t with
    | «alias» name => cases later <;> rfl
    | _ => exact hmarked

theorem contains_put {ends : List Token} (hends : ∀ text style, .scalar text style ∉ ends)
    (t : Token) : ends.contains (s.put t) = ends.contains t := by
  cases t with
  | scalar text style =>
    rw [Bool.eq_iff_iff, List.contains_iff_mem, List.contains_iff_mem]
    exact iff_of_false (hends _ _) (hends _ _)
  | _ => rfl

theorem nodeOr_put (s : Slot) (e : Fault) (p : Parser) {ends : List Token}
    (hends : ∀ text style, .scalar text style ∉ ends) (next : Expected) (block bare : Bool) :
    ((s.putParser e p).nodeOr ends next block bare).toOption =
      (p.nodeOr ends next block bare).toOption.map (s.putStep e) := by
  have hnode := node_put s e { p with later := next :: p.later } block bare
  obtain ⟨now, later, ts, handles, ended⟩ := p
  cases ts with
  | nil => rfl
  | cons t ts =>
    have hcontains := contains_put (s := s) hends t
    simp only [nodeOr, peek, Slot.putParser, List.map_cons, bind, Except.bind, hcontains]
    split_ifs
    · rfl
    · exact hnode

theorem directives_put (s : Slot) (e : Fault) (n : Nat) (versioned : Bool) (p : Parser) :
    directives n versioned (s.putParser e p) = (directives n versioned p).map (s.putParser e) := by
  induction n generalizing versioned p with
  | zero => rfl
  | succ n ih =>
    obtain ⟨now, later, ts, handles, ended⟩ := p
    cases ts with
    | nil => rfl
    | cons t ts =>
      cases t with
      | version major minor =>
        have := ih true ⟨now, later, ts, handles, ended⟩
        simp only [directives, Slot.putParser, List.map_cons, Slot.put]
        split_ifs
        · rfl
        · exact this
      | tagHandle h t =>
        have := ih versioned ⟨now, later, ts, handles ++ [(h, t)], ended⟩
        simp only [directives, Slot.putParser, List.map_cons, Slot.put]
        split_ifs
        · rfl
        · exact this
      | _ => rfl

/-- The start of a document behind its directives. -/
def beginDocument (p : Parser) : Except Fault (Option (Event × Parser)) := do
  let p ← directives (p.tokens.length + 1) false p
  match ← p.peek with
  | .documentStart =>
    return some (.documentStart, { p.drop with now := .content, later := [.documentEnd] })
  | _ => throw .order

/-- The start of a document, or none at the end of the text. -/
def openDocument (implicit : Bool) (p : Parser) : Except Fault (Option (Event × Parser)) := do
  match ← p.peek with
  | .streamEnd => return none
  | t =>
    let explicit := match t with
      | .version .. | .tagHandle .. | .documentStart => true
      | _ => !implicit
    if explicit then p.beginDocument
    else return some (.documentStart, { p with now := .blockNode, later := [.documentEnd] })

theorem beginDocument_put (s : Slot) (e : Fault) (p : Parser) :
    (s.putParser e p).beginDocument.toOption =
      p.beginDocument.toOption.map (Option.map (s.putStep e)) := by
  have hlength : (s.putParser e p).tokens.length = p.tokens.length := List.length_map ..
  unfold beginDocument
  rw [hlength, directives_put]
  cases directives (p.tokens.length + 1) false p with
  | error => rfl
  | ok q =>
    obtain ⟨now, later, ts, handles, ended⟩ := q
    cases ts with
    | nil => rfl
    | cons t ts => cases t <;> rfl

theorem openDocument_put (s : Slot) (e : Fault) (implicit : Bool) (p : Parser) :
    ((s.putParser e p).openDocument implicit).toOption =
      (p.openDocument implicit).toOption.map (Option.map (s.putStep e)) := by
  have hbegin := beginDocument_put s e p
  obtain ⟨now, later, ts, handles, ended⟩ := p
  cases ts with
  | nil => rfl
  | cons t ts => cases implicit <;> cases t <;> first | rfl | exact hbegin

/-- An item of a sequence in brackets where one may begin, or the end of the sequence. -/
def flowItem (p : Parser) : Except Fault (Option (Event × Parser)) := do
  match ← p.peek with
  | .key => return some (.mappingStart ⟨none, none⟩, { p.drop with now := .pairKey })
  | .flowSequenceEnd => return some (.sequenceEnd, p.drop.pop)
  | _ => (node { p with later := .flowEntry false :: p.later } false false).map some

/-- A key of a mapping in brackets where one may begin, or the end of the mapping. -/
def flowMember (p : Parser) : Except Fault (Option (Event × Parser)) := do
  match ← p.peek with
  | .key =>
    (p.drop.nodeOr [.value, .flowEntry, .flowMappingEnd] .flowValue false false).map some
  | .flowMappingEnd => return some (.mappingEnd, p.drop.pop)
  | _ => (node { p with later := .flowNoValue :: p.later } false false).map some

theorem some_put {u v : Except Fault (Event × Parser)}
    (h : u.toOption = v.toOption.map (s.putStep e)) :
    (u.map some).toOption = (v.map some).toOption.map (Option.map (s.putStep e)) := by
  cases u <;> cases v <;> simp_all [Except.toOption, Except.map]

theorem flowItem_put (s : Slot) (e : Fault) (p : Parser) :
    (s.putParser e p).flowItem.toOption = p.flowItem.toOption.map (Option.map (s.putStep e)) := by
  have hitem := some_put (node_put s e { p with later := .flowEntry false :: p.later } false false)
  obtain ⟨now, later, ts, handles, ended⟩ := p
  cases ts with
  | nil => rfl
  | cons t ts => cases t <;> first | exact hitem | rfl | (cases later <;> rfl)

theorem flowMember_put (s : Slot) (e : Fault) (p : Parser) :
    (s.putParser e p).flowMember.toOption =
      p.flowMember.toOption.map (Option.map (s.putStep e)) := by
  have hends (text : List Char) (style : Style) :
      .scalar text style ∉ [Token.value, .flowEntry, .flowMappingEnd] := by simp
  have hkey := some_put (nodeOr_put s e p.drop hends .flowValue false false)
  have hitem := some_put (node_put s e { p with later := .flowNoValue :: p.later } false false)
  obtain ⟨now, later, ts, handles, ended⟩ := p
  cases ts with
  | nil => rfl
  | cons t ts => cases t <;> first | exact hitem | exact hkey | rfl | (cases later <;> rfl)

theorem step_put (s : Slot) (e : Fault) (p : Parser) :
    (s.putParser e p).step.toOption = p.step.toOption.map (Option.map (s.putStep e)) := by
  have hnode (q : Parser) (block bare : Bool) := some_put (node_put s e q block bare)
  have hnodeOr (ends : List Token) (hends : ∀ text style, .scalar text style ∉ ends) (q : Parser)
      (next : Expected) (block bare : Bool) := some_put (nodeOr_put s e q hends next block bare)
  have hitem := flowItem_put s e
  have hmember := flowMember_put s e
  obtain ⟨now, later, ts, handles, ended⟩ := p
  -- what comes next depends on the kind of the next token alone, or of the next two behind a comma,
  -- and the value in the word's place is of the word's kind
  cases now with
  | document implicit =>
    cases implicit with
    | true => exact openDocument_put s e true _
    | false =>
      have hends := openDocument_put s e false (dropEnds ⟨.document false, later, ts, handles, ended⟩)
      rw [← dropEnds_put] at hends
      exact hends
  | blockNode => exact hnode _ _ _
  | pairEnd => rfl
  | flowEntry first =>
    cases ts with
    | nil => cases first <;> rfl
    | cons t ts =>
      cases first with
      | true =>
        have hfirst := hitem ⟨.flowEntry true, later, t :: ts, handles, ended⟩
        cases t <;> exact hfirst
      | false =>
        cases t with
        | flowEntry => exact hitem ⟨.flowEntry false, later, ts, handles, ended⟩
        | _ => first | rfl | (cases later <;> rfl)
  | flowKey first =>
    cases ts with
    | nil => cases first <;> rfl
    | cons t ts =>
      cases first with
      | true =>
        have hfirst := hmember ⟨.flowKey true, later, t :: ts, handles, ended⟩
        cases t <;> exact hfirst
      | false =>
        cases t with
        | flowEntry => exact hmember ⟨.flowKey false, later, ts, handles, ended⟩
        | _ => first | rfl | (cases later <;> rfl)
  | pairKey =>
    cases ts with
    | nil => rfl
    | cons t ts =>
      have hkey := hnode ⟨.pairKey, .pairValue :: later, t :: ts, handles, ended⟩ false false
      cases t <;> first | exact hkey | rfl
  | content =>
    cases ts with
    | nil => rfl
    | cons t ts =>
      have hcontent := hnode ⟨.content, later, t :: ts, handles, ended⟩ true false
      cases t <;> first | exact hcontent | (cases later <;> rfl)
  | _ =>
    cases ts with
    | nil => rfl
    | cons t ts =>
      cases t <;> first
        | rfl
        | exact hnodeOr _ (by simp) ⟨_, later, ts, handles, ended⟩ _ _ _
        | (cases later <;> rfl)

theorem run_put (s : Slot) (e : Fault) (n : Nat) (p : Parser) (h : (run n p).2 = none) :
    run n (s.putParser e p) = ((run n p).1.map s.putEvent, none) := by
  induction n generalizing p with
  | zero => cases h
  | succ n ih =>
    have hstep := step_put s e p
    rw [run] at h
    rw [run, run]
    cases hp : p.step with
    | error f => rw [hp] at h; cases h
    | ok r =>
      rw [hp] at h hstep
      have hput := ok_of_toOption hstep
      rw [hput]
      cases r with
      | none => rfl
      | some r =>
        have := ih r.2 h
        simp only [Option.map, Slot.putStep, this, List.map_cons]

/-! ## The tokens that are left -/

@[simp]
theorem pop_tokens (p : Parser) : p.pop.tokens = p.tokens := by
  unfold pop
  split <;> rfl

theorem mem_of_drop (p : Parser) (h : t ∈ p.drop.tokens) : t ∈ p.tokens := List.mem_of_mem_drop h

theorem mem_of_marks {m : Marks} (h : p.marks = .ok (m, q)) (ht : t ∈ q.tokens) : t ∈ p.tokens := by
  obtain ⟨now, later, ts, handles, ended⟩ := p
  simp only [marks, bind, Except.bind, pure, Except.pure] at h
  grind

theorem mem_of_marked {ev : Event} {block bare : Bool} {m : Marks}
    (h : p.marked block bare m = .ok (ev, q)) (ht : t ∈ q.tokens) : t ∈ p.tokens := by
  simp only [marked, bind, Except.bind, pure, Except.pure, throw, throwThe, MonadExceptOf.throw] at h
  grind [pop_tokens, mem_of_drop]

theorem mem_of_node {ev : Event} {block bare : Bool}
    (h : p.node block bare = .ok (ev, q)) (ht : t ∈ q.tokens) : t ∈ p.tokens := by
  by_cases halias : ∃ name, p.tokens.head? = some (.alias name)
  · obtain ⟨now, later, _ | ⟨u, ts⟩, handles, ended⟩ := p
    · cases h
    · obtain ⟨name, hname⟩ := halias
      cases hname
      cases h
      rw [pop_tokens] at ht
      exact mem_of_drop _ ht
  · rw [node_eq p block bare (not_exists.1 halias)] at h
    obtain ⟨_, -, h⟩ := bind_eq_ok_iff.1 h
    obtain ⟨⟨m, r⟩, hm, h⟩ := bind_eq_ok_iff.1 h
    exact mem_of_marks hm (mem_of_marked h ht)

theorem mem_of_nodeOr {ev : Event} {ends : List Token} {next : Expected} {block bare : Bool}
    (h : p.nodeOr ends next block bare = .ok (ev, q)) (ht : t ∈ q.tokens) : t ∈ p.tokens := by
  obtain ⟨u, -, h⟩ := bind_eq_ok_iff.1 h
  split_ifs at h
  · cases h
    exact ht
  · exact mem_of_node (p := { p with later := next :: p.later }) h ht

theorem mem_of_directives {n : Nat} {versioned : Bool} (h : directives n versioned p = .ok q)
    (ht : t ∈ q.tokens) : t ∈ p.tokens := by
  induction n generalizing versioned p with
  | zero => cases h; exact ht
  | succ n ih =>
    rw [directives] at h
    split at h
    · split_ifs at h
      exact p.mem_of_drop (ih h)
    next handle stem _ _ =>
      split_ifs at h
      exact p.mem_of_drop (ih (p := { p.drop with handles := p.handles ++ [(handle, stem)] }) h)
    · cases h
      exact ht

theorem mem_of_dropEnds (h : t ∈ p.dropEnds.tokens) : t ∈ p.tokens :=
  (List.dropWhile_suffix _).subset h

theorem mem_of_peek (h : p.peek = .ok t) : t ∈ p.tokens := by
  unfold peek at h
  grind

/-- The tokens behind a step are among those before it, and there is no event only at the end. -/
def Ends (p : Parser) : Option (Event × Parser) → Prop
  | none => .streamEnd ∈ p.tokens
  | some (_, q) => .streamEnd ∈ q.tokens → .streamEnd ∈ p.tokens

theorem ends_of_begin {r : Option (Event × Parser)} (h : p.beginDocument = .ok r) : p.Ends r := by
  obtain ⟨q, hq, h⟩ := bind_eq_ok_iff.1 h
  obtain ⟨t, -, h⟩ := bind_eq_ok_iff.1 h
  split at h
  · cases h
    exact fun hmem => mem_of_directives hq (q.mem_of_drop hmem)
  · cases h

theorem ends_of_open {implicit : Bool} {r : Option (Event × Parser)}
    (h : p.openDocument implicit = .ok r) : p.Ends r := by
  obtain ⟨t, ht, h⟩ := bind_eq_ok_iff.1 h
  split at h
  · cases h
    exact mem_of_peek ht
  · dsimp only at h
    generalize (match t with
      | .version .. | .tagHandle .. | .documentStart => true
      | _ => !implicit) = explicit at h
    cases explicit with
    | true => exact ends_of_begin h
    | false =>
      cases h
      exact id

theorem ends_of_step {r : Option (Event × Parser)} (h : p.step = .ok r) : p.Ends r := by
  cases hnow : p.now with
  | document implicit =>
    have hopen : (if implicit then p else p.dropEnds).openDocument implicit = .ok r := by
      rw [step, hnow] at h
      exact h
    cases implicit with
    | true => exact ends_of_open hopen
    | false =>
      have hends := ends_of_open hopen
      cases r with
      | none => exact mem_of_dropEnds hends
      | some r => exact fun hmem => mem_of_dropEnds (hends hmem)
  | flowEntry first | flowKey first =>
    simp only [step, hnow, bind, Except.bind, pure, Except.pure, throw, throwThe,
      MonadExceptOf.throw, Except.map] at h
    split at h
    · cases h
    · split_ifs at h
      all_goals grind [Ends, → mem_of_peek, → mem_of_drop, → mem_of_node, → mem_of_nodeOr, pop_tokens]
  | _ =>
    simp only [step, hnow, bind, Except.bind, pure, Except.pure, throw, throwThe,
      MonadExceptOf.throw, Except.map] at h
    grind [Ends, → mem_of_peek, → mem_of_drop, → mem_of_node, → mem_of_nodeOr, pop_tokens]

theorem streamEnd_of_run {n : Nat} (h : (run n p).2 = none) : .streamEnd ∈ p.tokens := by
  induction n generalizing p with
  | zero => cases h
  | succ n ih =>
    rw [run] at h
    split at h
    · cases h
    next hstep => exact ends_of_step hstep
    next hstep => exact ends_of_step hstep (ih h)

end Parser

variable {text text' : List Char}

theorem streamEnd_of_events (h : (events text).2 = none) : .streamEnd ∈ (tokens text).1 := by
  unfold events at h
  exact Parser.streamEnd_of_run h

/-- Texts with the same tokens up to the word have the same events up to the word. -/
theorem events_put (hput : (tokens text').1 = (tokens text).1.map s.put)
    (h : (events text).2 = none) : events text' = ((events text).1.map s.putEvent, none) := by
  unfold events at h ⊢
  dsimp only at h ⊢
  rw [hput, List.length_map]
  exact Parser.run_put s _ _ ⟨_, _, _, _, _⟩ h

end TokenKeeper.Yaml
