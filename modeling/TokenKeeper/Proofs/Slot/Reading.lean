import Mathlib.Data.List.Forall2
import TokenKeeper.Proofs.Records
import TokenKeeper.Proofs.Slot.Document

/-!
# Reading two documents that differ in one value

Two values are put in the place of a word that stands in a document only behind keys of one name
(`Node.onlyAs`). Where both documents can be read, they are read alike, except for what is behind such
a key (`Place.readRecord_agrees`).
-/

namespace TokenKeeper.Yaml

/-! ## Two runs -/

/-- Where both succeed from the same state, as many aliases are followed, and what is read is
related. -/
def Agrees {α β : Type} (R : α → β → Prop) (x : Read α) (y : Read β) : Prop :=
  ∀ n a k b l, x.run n = .ok (a, k) → y.run n = .ok (b, l) → k = l ∧ R a b

namespace Agrees
variable {α β γ δ : Type} {R R' : α → β → Prop} {Q : γ → δ → Prop} {x : Read α} {y : Read β}

theorem ret {a : α} {b : β} (h : R a b) : Agrees R (pure a) (pure b) := by
  intro n a' k b' l hx hy
  cases hx
  cases hy
  exact ⟨rfl, h⟩

theorem fail (h : Yields (fun _ => False) x) : Agrees R x y :=
  fun n a k _ _ hx _ => (h n a k hx).elim

theorem fail_right (h : Yields (fun _ => False) y) : Agrees R x y :=
  fun n _ _ b l _ hy => (h n b l hy).elim

theorem mono (h : Agrees R x y) (hR : ∀ a b, R a b → R' a b) : Agrees R' x y :=
  fun n a k b l hx hy => (h n a k b l hx hy).imp_right (hR a b)

theorem bind {f : α → Read γ} {g : β → Read δ} (h : Agrees R x y)
    (hnext : ∀ a b, R a b → Agrees Q (f a) (g b)) : Agrees Q (x >>= f) (y >>= g) := by
  intro n c k e l hx hy
  rw [StateT.run_bind] at hx hy
  obtain ⟨⟨a, m⟩, ha, hx⟩ := bind_eq_ok_iff.1 hx
  obtain ⟨⟨b, m'⟩, hb, hy⟩ := bind_eq_ok_iff.1 hy
  obtain ⟨rfl, hab⟩ := h n a m b m' ha hb
  exact hnext a b hab m c k e l hx hy

theorem map {f : α → γ} {g : β → δ} (h : Agrees R x y) (hnext : ∀ a b, R a b → Q (f a) (g b)) :
    Agrees Q (f <$> x) (g <$> y) := by
  rw [map_eq_pure_bind, map_eq_pure_bind]
  exact h.bind fun a b hab => ret (hnext a b hab)

theorem forM {S : α → β → Prop} {xs : List α} {ys : List β} {f : α → Read PUnit}
    {g : β → Read PUnit} (h : List.Forall₂ S xs ys)
    (hnext : ∀ a b, S a b → Agrees (fun _ _ => True) (f a) (g b)) :
    Agrees (fun _ _ => True) (xs.forM f) (ys.forM g) := by
  induction h with
  | nil => exact ret trivial
  | cons hab _ ih => exact (hnext _ _ hab).bind fun _ _ _ => ih

end Agrees

/-! ## Where the word is -/

/-- The word as the value of a key of that name. -/
def isValueOf (word name : List Char) : Node → Node → Bool
  | .scalar _ key _, .scalar none text .plain => key == name && text == word
  | _, _ => false

namespace Node

mutual

/-- Whether the word stands in the node only as the value of keys of that name. -/
def onlyAs (word name : List Char) : Node → Bool
  | .scalar _ text style => !(style == .plain && text == word)
  | .sequence _ items => itemsOnlyAs word name items
  | .mapping _ entries => entriesOnlyAs word name entries
  | _ => true

def itemsOnlyAs (word name : List Char) : List Node → Bool
  | [] => true
  | n :: ns => n.onlyAs word name && itemsOnlyAs word name ns

def entriesOnlyAs (word name : List Char) : List (Node × Node) → Bool
  | [] => true
  | (k, v) :: es =>
    k.onlyAs word name && (v.onlyAs word name || isValueOf word name k v) &&
      entriesOnlyAs word name es

end

end Node

def Document.onlyAs (word name : List Char) (d : Document) : Bool :=
  d.root.onlyAs word name && d.anchored.all fun a => a.node.onlyAs word name

variable {s s' : Slot} {d : Document} {field name : List Char} {p p' : Place} {n : Node}

theorem onlyAs_of_mem_items {word : List Char} {items : List Node}
    (h : Node.itemsOnlyAs word name items = true) : ∀ n ∈ items, n.onlyAs word name = true := by
  induction items with
  | nil => simp
  | cons m ms ih =>
    rw [Node.itemsOnlyAs, Bool.and_eq_true] at h
    exact List.forall_mem_cons.2 ⟨h.1, ih h.2⟩

/-- What may stand behind a key. -/
def Meets (word field name : List Char) (n : Node) : Prop :=
  n.onlyAs word field = true ∨ (name = field ∧ n = .scalar none word .plain)

theorem eq_of_isValueOf {word : List Char} {k v : Node} (h : isValueOf word name k v = true) :
    (∃ tag style, k = .scalar tag name style) ∧ v = .scalar none word .plain := by
  unfold isValueOf at h
  split at h
  · obtain ⟨rfl, rfl⟩ : _ = name ∧ _ = word := by simpa using h
    exact ⟨⟨_, _, rfl⟩, rfl⟩
  · cases h

namespace Slot

theorem fill_of_ne {text : List Char} (h : text ≠ s.word) (style : Style) :
    s.fill text style = text :=
  if_neg fun h' => h h'.2

theorem putNode_scalar {tag : Option (List Char)} {text : List Char} {style : Style}
    (h : (Node.scalar tag text style).onlyAs s.word field = true) :
    s.putNode (.scalar tag text style) = .scalar tag text style := by
  rw [putNode, fill, if_neg]
  rintro ⟨rfl, rfl⟩
  simp [Node.onlyAs] at h

theorem putNode_word (s : Slot) :
    s.putNode (.scalar none s.word .plain) = .scalar none s.value .plain := by
  rw [putNode, fill, if_pos ⟨rfl, rfl⟩]

/-- The later one of the nodes with that number. -/
def latest (number : Nat) (best : Option Anchored) (a : Anchored) : Option Anchored :=
  if a.number != number then best
  else
    match best with
    | some b => if b.place < a.place then some a else some b
    | none => some a

theorem latest_put (s : Slot) (number : Nat) (best : Option Anchored) (a : Anchored) :
    latest number (best.map s.putAnchored) (s.putAnchored a) =
      (latest number best a).map s.putAnchored := by
  cases best with
  | none => cases h : a.number != number <;> simp [latest, putAnchored, h]
  | some b =>
    by_cases hlt : b.place < a.place <;>
      cases h : a.number != number <;> simp [latest, putAnchored, h, hlt]

theorem find_put (s : Slot) (d : Document) (number : Nat) :
    (s.putDocument d).find number = s.putNode (d.find number) := by
  have hfold (as : List Anchored) (best : Option Anchored) :
      (as.map s.putAnchored).foldl (latest number) (best.map s.putAnchored) =
        (as.foldl (latest number) best).map s.putAnchored := by
    induction as generalizing best with
    | nil => rfl
    | cons a as ih => rw [List.map_cons, List.foldl_cons, List.foldl_cons, latest_put, ih]
  have hfind (d : Document) : d.find number =
      ((d.anchored.foldl (latest number) none).map Anchored.node).getD .missing := by
    show (match d.anchored.foldl (latest number) none with
      | some a => a.node
      | none => .missing) = _
    cases d.anchored.foldl (latest number) none <;> rfl
  rw [hfind, hfind]
  refine (congrArg (fun o => (Option.map Anchored.node o).getD .missing) (hfold d.anchored none)).trans ?_
  cases d.anchored.foldl (latest number) none <;> rfl

theorem latest_eq {number : Nat} {best : Option Anchored} (a : Anchored) :
    latest number best a = best ∨ latest number best a = some a := by
  unfold latest
  split_ifs
  · exact .inl rfl
  · cases best with
    | none => exact .inr rfl
    | some b =>
      dsimp only
      split_ifs
      · exact .inr rfl
      · exact .inl rfl

theorem mem_of_latest {number : Nat} {as : List Anchored} {best : Option Anchored} {a : Anchored}
    (h : as.foldl (latest number) best = some a) : a ∈ as ∨ best = some a := by
  induction as generalizing best with
  | nil => exact .inr h
  | cons b as ih =>
    rcases ih h with hmem | hbest
    · exact .inl (List.mem_cons_of_mem _ hmem)
    · rcases latest_eq b with hb | hb
      · exact .inr (hb.symm.trans hbest)
      · obtain rfl := Option.some.inj (hb.symm.trans hbest)
        exact .inl List.mem_cons_self

theorem onlyAs_find {word : List Char} (h : d.onlyAs word field = true) (number : Nat) :
    (d.find number).onlyAs word field = true := by
  show Node.onlyAs word field (match d.anchored.foldl (latest number) none with
    | some a => a.node
    | none => .missing) = true
  cases hfold : d.anchored.foldl (latest number) none with
  | none => rfl
  | some a =>
    have hall := (Bool.and_eq_true_iff.1 h).2
    exact List.all_eq_true.1 hall a ((mem_of_latest hfold).resolve_right nofun)

theorem behind_put (s : Slot) (d : Document) (n : Node) :
    (s.putDocument d).behind (s.putNode n) = s.putNode (d.behind n) := by
  cases n with
  | «alias» number => exact s.find_put d number
  | _ => rfl

theorem isNamed_put {name : String} {key : Node} (hname : name.toList ≠ s.word)
    (h : d.isNamed name key = true) : (s.putDocument d).isNamed name (s.putNode key) = true := by
  obtain ⟨tag, style, hkey⟩ := Document.isNamed_iff.1 h
  refine Document.isNamed_iff.2 ⟨tag, style, ?_⟩
  rw [behind_put, hkey, putNode, fill_of_ne hname]

/-- The values behind the keys of a name are there with the value in the word's place. -/
theorem mem_values_put {name : String} {n value : Node} (hname : name.toList ≠ s.word)
    (h : value ∈ d.values name n) :
    s.putNode value ∈ (s.putDocument d).values name (s.putNode n) := by
  obtain ⟨tag, entries, key, hn, hmem, hkey⟩ := Document.mem_values_iff.1 h
  refine Document.mem_values_iff.2
    ⟨tag, s.putEntries entries, s.putNode key, ?_, ?_, isNamed_put hname hkey⟩
  · rw [behind_put, hn, putNode]
  · rw [putEntries_eq]
    exact List.mem_map.2 ⟨(key, value), hmem, rfl⟩

end Slot

/-! ## Reading in the two documents -/

/-- Places in the two documents at the same depth. -/
structure Beside (s s' : Slot) (d : Document) (p p' : Place) : Prop where
  left : p.document = s.putDocument d
  right : p'.document = s'.putDocument d
  depth : p'.depth = p.depth

/-- Nodes of the two documents in which the word is only behind keys of that name. -/
def Alike (s s' : Slot) (field : List Char) (n n' : Node) : Prop :=
  ∃ m, m.onlyAs s.word field = true ∧ n = s.putNode m ∧ n' = s'.putNode m

/-- The values are put in the place of one word, which is in the document only behind keys of that
name. -/
structure Both (s s' : Slot) (field : List Char) (d : Document) : Prop where
  word : s'.word = s.word
  only : d.onlyAs s.word field = true

theorem Both.putNode_scalar (h : Both s s' field d) {tag : Option (List Char)} {text : List Char}
    {style : Style} (hn : (Node.scalar tag text style).onlyAs s.word field = true) :
    s.putNode (.scalar tag text style) = .scalar tag text style ∧
      s'.putNode (.scalar tag text style) = .scalar tag text style :=
  ⟨Slot.putNode_scalar hn, Slot.putNode_scalar (h.word ▸ hn)⟩

namespace Place

theorem value_document (p : Place) (key : Node) : (p.value key).document = p.document := by
  cases key <;> rfl

theorem value_depth (p : Place) (key : Node) : (p.value key).depth = p.depth := by
  cases key <;> rfl

theorem follow_agrees (hd : Both s s' field d) (hp : Beside s s' d p p')
    (hn : n.onlyAs s.word field = true) :
    Agrees (Alike s s' field) (p.follow (s.putNode n)) (p'.follow (s'.putNode n)) := by
  cases n with
  | «alias» number =>
    rintro k a l b m hx hy
    have hsize : p'.document.size = p.document.size := by rw [hp.left, hp.right]; rfl
    simp only [Slot.putNode, follow, hsize, StateT.run_bind, StateT.run_get, pure_bind,
      StateT.run_set] at hx hy
    split at hx
    · cases hx
    next hle =>
      rw [if_neg hle] at hy
      cases hx
      cases hy
      refine ⟨rfl, d.find number, Slot.onlyAs_find hd.only number, ?_, ?_⟩
      · rw [hp.left, Slot.find_put]
      · rw [hp.right, Slot.find_put]
  | _ => exact .ret ⟨_, hn, rfl, rfl⟩

variable {α β : Type}

/-- What is read from a scalar of any document alike, and from nothing else. -/
theorem follow_agrees_of_scalar (hd : Both s s' field d) (hp : Beside s s' d p p')
    {f g : Node → Read α} (hn : n.onlyAs s.word field = true)
    (hscalar : ∀ tag text style, Agrees Eq (f (.scalar tag text style)) (g (.scalar tag text style)))
    (hother : ∀ n, (∀ tag text style, n ≠ .scalar tag text style) → Yields (fun _ => False) (f n)) :
    Agrees Eq (p.follow (s.putNode n) >>= f) (p'.follow (s'.putNode n) >>= g) := by
  refine (follow_agrees hd hp hn).bind ?_
  rintro _ _ ⟨m, hm, rfl, rfl⟩
  cases m with
  | scalar tag text style =>
    obtain ⟨hs, hs'⟩ := hd.putNode_scalar hm
    rw [hs, hs']
    exact hscalar tag text style
  | _ => exact .fail (hother _ (by simp [Slot.putNode]))

theorem readTextAs_agrees (hd : Both s s' field d) (hp : Beside s s' d p p') (expected : String)
    (hn : n.onlyAs s.word field = true) :
    Agrees Eq (p.readTextAs expected (s.putNode n)) (p'.readTextAs expected (s'.putNode n)) := by
  refine follow_agrees_of_scalar hd hp hn (fun _ _ _ => .ret rfl) fun m hm => ?_
  split
  next tag text style => exact absurd rfl (hm tag text style)
  · exact p.mismatch_yields _ _

theorem readText_agrees (hd : Both s s' field d) (hp : Beside s s' d p p')
    (hn : n.onlyAs s.word field = true) :
    Agrees Eq (p.readText (s.putNode n)) (p'.readText (s'.putNode n)) :=
  (readTextAs_agrees hd hp _ hn).map fun _ _ => congrArg _

theorem readFlag_agrees (hd : Both s s' field d) (hp : Beside s s' d p p')
    (hn : n.onlyAs s.word field = true) :
    Agrees Eq (p.readFlag (s.putNode n)) (p'.readFlag (s'.putNode n)) := by
  refine follow_agrees_of_scalar hd hp hn (fun tag text style => ?_) fun m hm => ?_
  · dsimp only
    split
    · exact .ret rfl
    · exact .fail (p.mismatch_yields _ _)
  · split
    next tag text style => exact absurd rfl (hm tag text style)
    · exact p.mismatch_yields _ _

theorem readCount_agrees (hd : Both s s' field d) (hp : Beside s s' d p p')
    (hn : n.onlyAs s.word field = true) :
    Agrees Eq (p.readCount (s.putNode n)) (p'.readCount (s'.putNode n)) := by
  refine follow_agrees_of_scalar hd hp hn (fun tag text style => ?_) fun m hm => ?_
  · dsimp only
    split
    · exact .ret rfl
    · exact .fail (p.mismatch_yields _ _)
  · split
    next tag text style => exact absurd rfl (hm tag text style)
    · exact p.mismatch_yields _ _

theorem readOption_agrees (hd : Both s s' field d) (hp : Beside s s' d p p')
    {read read' : Node → Read α}
    (hread : ∀ n, n.onlyAs s.word field = true →
      Agrees Eq (read (s.putNode n)) (read' (s'.putNode n)))
    (hn : n.onlyAs s.word field = true) :
    Agrees Eq (p.readOption read (s.putNode n)) (p'.readOption read' (s'.putNode n)) := by
  refine (follow_agrees hd hp hn).bind ?_
  rintro _ _ ⟨m, hm, rfl, rfl⟩
  have hsome : Agrees Eq (some <$> read (s.putNode m)) (some <$> read' (s'.putNode m)) :=
    (hread m hm).map fun _ _ => congrArg _
  cases m with
  | scalar tag text style =>
    obtain ⟨hs, hs'⟩ := hd.putNode_scalar hm
    rw [hs, hs'] at hsome ⊢
    cases style with
    | plain =>
      cases tag with
      | none =>
        dsimp only
        split
        · exact .ret rfl
        · exact hsome
      | some tag =>
        dsimp only
        split
        · exact hsome
        · split
          · exact .ret rfl
          · exact .fail (p.around.refuse_yields _)
    | _ => cases tag <;> exact hsome
  | missing => exact .fail p.breakOff_yields
  | void => exact .ret rfl
  | _ => exact hsome

theorem readUnit_agrees (p p' : Place) (n : Node) : Agrees Eq (p.readUnit n) (p'.readUnit n) := by
  unfold readUnit
  split
  · split
    · exact .ret rfl
    · exact .fail (p.refuse_yields _)
  · exact .fail (p.mismatch_yields _ _)

theorem readChoice_agrees (hd : Both s s' field d) (hp : Beside s s' d p p')
    (choices : List (String × α)) (hn : n.onlyAs s.word field = true) :
    Agrees Eq (p.readChoice choices (s.putNode n)) (p'.readChoice choices (s'.putNode n)) := by
  refine (follow_agrees hd hp hn).bind ?_
  rintro _ _ ⟨m, hm, rfl, rfl⟩
  cases m with
  | scalar tag text style =>
    obtain ⟨hs, hs'⟩ := hd.putNode_scalar hm
    rw [hs, hs']
    dsimp only
    split
    next name _ =>
      cases choices.lookup (String.ofList name) with
      | some a => exact (readUnit_agrees _ _ _).bind fun _ _ _ => .ret rfl
      | none => exact .fail (.bind (p.around.refuse_yields _) fun _ => False.elim)
    · cases choices.lookup (String.ofList text) with
      | some a => exact .ret rfl
      | none => exact .fail (p.refuse_yields _)
  | sequence tag items | mapping tag entries =>
    simp only [Slot.putNode]
    split
    · exact .fail (.andThen _ fun _ => .bind (p.refuse_yields _) fun _ => False.elim)
    · exact .fail (p.mismatch_yields _ _)
  | _ => exact .fail (p.mismatch_yields _ _)

theorem skip_agrees (p p' : Place) (n n' : Node) : Agrees Eq (p.skip n) (p'.skip n') := by
  unfold skip
  split
  · exact .fail p.breakOff_yields
  · split
    · exact .fail_right p'.breakOff_yields
    · exact .ret rfl

theorem readAny_scalar (document : Document) (depth : Nat) (path : Path)
    (tag : Option (List Char)) (text : List Char) (style : Style) :
    (∃ f, readAny document depth path (.scalar tag text style) = pure f) ∨
      Yields (fun _ => False) (readAny document depth path (.scalar tag text style)) := by
  rw [readAny.eq_def]
  simp only [follow, pure_bind]
  split
  · exact .inr (Place.refuse_yields _ _)
  · split
    · exact .inr (Place.refuse_yields _ _)
    next f _ _ => exact .inl ⟨f, rfl⟩
    · exact .inr (Place.refuse_yields _ _)

/-- Whatever a scalar stands for, no alias is followed. -/
theorem readAny_scalar_agrees (document document' : Document) (depth depth' : Nat) (path path' : Path)
    (tag tag' : Option (List Char)) (text text' : List Char) (style style' : Style) :
    Agrees (fun _ _ => True) (readAny document depth path (.scalar tag text style))
      (readAny document' depth' path' (.scalar tag' text' style')) := by
  rcases readAny_scalar document depth path tag text style with ⟨f, hf⟩ | hfail
  · rcases readAny_scalar document' depth' path' tag' text' style' with ⟨f', hf'⟩ | hfail
    · rw [hf, hf']
      exact .ret trivial
    · exact .fail_right hfail
  · exact .fail hfail

theorem mem_of_entriesOnlyAs {word : List Char} {entries : List (Node × Node)}
    (h : Node.entriesOnlyAs word name entries = true) :
    ∀ e ∈ entries, e.1.onlyAs word name = true ∧
      (e.2.onlyAs word name = true ∨ isValueOf word name e.1 e.2 = true) := by
  induction entries with
  | nil => simp
  | cons e es ih =>
    rw [Node.entriesOnlyAs, Bool.and_eq_true, Bool.and_eq_true, Bool.or_eq_true] at h
    exact List.forall_mem_cons.2 ⟨h.1, ih h.2⟩

theorem readAny_agrees (hd : Both s s' field d) (depth : Nat) (path path' : Path)
    (hn : n.onlyAs s.word field = true) :
    Agrees Eq (readAny (s.putDocument d) depth path (s.putNode n))
      (readAny (s'.putDocument d) depth path' (s'.putNode n)) := by
  induction depth using Nat.strong_induction_on generalizing path path' n with
  | _ depth ih =>
    have hbeside : Beside s s' d ⟨s.putDocument d, path, depth⟩ ⟨s'.putDocument d, path', depth⟩ :=
      ⟨rfl, rfl, rfl⟩
    -- what is inside a collection is read one level down, where it agrees by induction
    rw [readAny.eq_def, readAny.eq_def]
    refine (follow_agrees hd hbeside hn).bind ?_
    rintro _ _ ⟨m, hm, rfl, rfl⟩
    cases m with
    | scalar tag text style =>
      obtain ⟨hs, hs'⟩ := hd.putNode_scalar hm
      rw [hs, hs']
      dsimp only
      split
      · exact .fail (Place.refuse_yields _ _)
      · split
        · exact .fail (Place.refuse_yields _ _)
        · exact .ret rfl
        · exact .fail (Place.refuse_yields _ _)
    | sequence tag items =>
      simp only [Slot.putNode]
      split
      · exact .fail (Place.refuse_yields _ _)
      cases depth with
      | zero => exact .fail (.fail _)
      | succ depth =>
        refine .bind (.forM (S := fun a b => Alike s s' field a.1 b.1) ?_ ?_) fun _ _ _ => .ret rfl
        · rw [Slot.putItems_eq, Slot.putItems_eq, List.zipIdx_map, List.zipIdx_map,
            List.forall₂_map_left_iff, List.forall₂_map_right_iff, List.forall₂_same]
          exact fun a ha => ⟨a.1, onlyAs_of_mem_items hm _ (List.fst_mem_of_mem_zipIdx ha), rfl, rfl⟩
        · rintro ⟨_, i⟩ ⟨_, j⟩ ⟨a, ha, rfl, rfl⟩
          exact (ih depth depth.lt_succ_self _ _ ha).bind fun _ _ _ => .ret trivial
    | mapping tag entries =>
      simp only [Slot.putNode]
      split
      · exact .fail (Place.refuse_yields _ _)
      cases depth with
      | zero => exact .fail (.fail _)
      | succ depth =>
        refine .bind (.forM (S := fun a b => ∃ e ∈ entries, a = s.putEntry e ∧ b = s'.putEntry e)
          ?_ ?_) fun _ _ _ => .ret rfl
        · rw [Slot.putEntries_eq, Slot.putEntries_eq, List.forall₂_map_left_iff,
            List.forall₂_map_right_iff, List.forall₂_same]
          exact fun e he => ⟨e, he, rfl, rfl⟩
        · rintro _ _ ⟨⟨k, v⟩, he, rfl, rfl⟩
          obtain ⟨hk, hv⟩ := mem_of_entriesOnlyAs hm _ he
          refine (ih depth depth.lt_succ_self _ _ hk).bind fun _ _ _ =>
            .bind (R := fun _ _ => True) ?_ fun _ _ _ => .ret trivial
          rcases hv with hv | hv
          · exact (ih depth depth.lt_succ_self _ _ hv).mono fun _ _ _ => trivial
          · obtain ⟨-, rfl⟩ := eq_of_isValueOf hv
            exact readAny_scalar_agrees _ _ _ _ _ _ _ _ _ _ _ _
    | void => exact .ret rfl
    | _ => exact .fail (Place.breakOff_yields _)

/-! ## Records -/

/-- The name of a key is the same in both documents, and then the value is what may stand there. -/
theorem readName_agrees (hd : Both s s' field d) (hp : Beside s s' d p p') {key value : Node}
    (hkey : key.onlyAs s.word field = true)
    (hvalue : value.onlyAs s.word field = true ∨ isValueOf s.word field key value = true) :
    Agrees (fun name name' => name = name' ∧ Meets s.word field name value)
      (p.readTextAs "field identifier" (s.putNode key))
      (p'.readTextAs "field identifier" (s'.putNode key)) := by
  rcases hvalue with hvalue | hvalue
  · exact (readTextAs_agrees hd hp _ hkey).mono fun _ _ hname => ⟨hname, .inl hvalue⟩
  · obtain ⟨⟨tag, style, rfl⟩, hword⟩ := eq_of_isValueOf hvalue
    obtain ⟨hs, hs'⟩ := hd.putNode_scalar hkey
    rw [hs, hs']
    exact .ret ⟨rfl, .inr ⟨rfl, hword⟩⟩

theorem beside_value (hp : Beside s s' d p p') (key key' : Node) :
    Beside s s' d (p.value key) (p'.value key') where
  left := (p.value_document key).trans hp.left
  right := (p'.value_document key').trans hp.right
  depth := by rw [value_depth, value_depth, hp.depth]

variable {σ : Type} {R : σ → σ → Prop} {fields : List (RecordField σ)}
  {other : Place → List Char → Node → σ → Read σ}

/-- What is behind keys of that name leaves records related. -/
def Follows (s s' : Slot) (field : List Char) (d : Document) (R : σ → σ → Prop)
    (name : List Char) (read : Place → Node → σ → Read σ) : Prop :=
  ∀ p p', Beside s s' d p p' → ∀ n, Meets s.word field name n → ∀ a b, R a b →
    Agrees R (read p (s.putNode n) a) (read p' (s'.putNode n) b)

theorem readEntries_agrees (hd : Both s s' field d)
    (hfields : ∀ f ∈ fields, Follows s s' field d R f.name.toList f.read)
    (hother : ∀ name, Follows s s' field d R name fun p n a => other p name n a)
    (hp : Beside s s' d p p') (entries : List (Node × Node))
    (hentries : Node.entriesOnlyAs s.word field entries = true) (seen : List String) {a b : σ}
    (hab : R a b) :
    Agrees R (p.readEntries fields other (s.putEntries entries) seen a)
      (p'.readEntries fields other (s'.putEntries entries) seen b) := by
  induction entries generalizing seen a b with
  | nil =>
    rw [Slot.putEntries, Slot.putEntries, readEntries, readEntries]
    split
    · exact .fail (p.refuse_yields _)
    · exact .ret hab
  | cons entry rest ih =>
    obtain ⟨key, value⟩ := entry
    obtain ⟨hkey, hvalue⟩ := mem_of_entriesOnlyAs hentries _ List.mem_cons_self
    have hrest : Node.entriesOnlyAs s.word field rest = true := (Bool.and_eq_true_iff.1 hentries).2
    rw [Slot.putEntries, Slot.putEntries, readEntries, readEntries]
    refine (readName_agrees hd hp hkey hvalue).bind ?_
    rintro name _ ⟨rfl, hmeets⟩
    have hinside := beside_value hp (s.putNode key) (s'.putNode key)
    dsimp only
    split
    next f hf =>
      split
      · exact .fail (p.refuse_yields _)
      · have hname : f.name.toList = name := by
          have := List.find?_some hf
          rw [beq_iff_eq] at this
          rw [this, String.toList_ofList]
        exact (hfields f (List.mem_of_find?_eq_some hf) _ _ hinside _ (hname ▸ hmeets) _ _ hab).bind
          fun _ _ hab => ih hrest _ hab
    · exact (hother name _ _ hinside _ hmeets _ _ hab).bind fun _ _ hab => ih hrest _ hab

theorem readRecord_agrees (hd : Both s s' field d)
    (hfields : ∀ f ∈ fields, Follows s s' field d R f.name.toList f.read)
    (hother : ∀ name, Follows s s' field d R name fun p n a => other p name n a)
    (title : String) (hp : Beside s s' d p p') {a b : σ} (hab : R a b)
    (hn : n.onlyAs s.word field = true) :
    Agrees R (p.readRecord title fields other a (s.putNode n))
      (p'.readRecord title fields other b (s'.putNode n)) := by
  have hnone {p p' : Place} (hp : Beside s s' d p p') :
      Agrees R (p.readEntries fields other [] [] a) (p'.readEntries fields other [] [] b) :=
    readEntries_agrees (s := s) hd hfields hother hp [] rfl [] hab
  refine (follow_agrees hd hp hn).bind ?_
  rintro _ _ ⟨m, hm, rfl, rfl⟩
  cases m with
  | mapping tag entries =>
    simp only [Slot.putNode]
    refine .bind (R := Beside s s' d) ?_ fun q q' hq =>
      readEntries_agrees hd hfields hother hq _ hm [] hab
    unfold enter
    rw [hp.depth]
    cases p.depth with
    | zero => exact .fail (.fail _)
    | succ depth => exact .ret ⟨hp.left, hp.right, rfl⟩
  | scalar tag text style =>
    obtain ⟨hs, hs'⟩ := hd.putNode_scalar hm
    rw [hs, hs']
    cases text with
    | nil =>
      cases style with
      | plain => exact hnone hp
      | _ => exact .fail (p.mismatch_yields _ _)
    | cons => exact .fail (p.mismatch_yields _ _)
  | void => exact hnone hp
  | _ => exact .fail (p.mismatch_yields _ _)

theorem skipOther_agrees (name : List Char) :
    Follows s s' field d R name fun p n a => skipOther p name n a :=
  fun p p' _ _ _ _ _ hab => (skip_agrees p p' _ _).bind fun _ _ _ => .ret hab

end Place

end TokenKeeper.Yaml
