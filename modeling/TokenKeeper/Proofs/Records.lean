import TokenKeeper.Proofs.Outcome
import TokenKeeper.Yaml.Read

/-!
# What reading a record keeps

A record is read field by field into one that begins without any. A property that the beginning has,
and that neither a field nor an entry beside the fields takes away, is one of every record that is
read (`Place.readRecord_yields`), whatever the document looks like; so it is of every text that is
read as a whole (`of_read`). What one entry of the document decides holds of the record as well, since
no name is read twice (`Place.readRecord_yields_of_entry`); a name without an entry decides nothing
(`Place.readRecord_yields_of_absent`).
-/

namespace TokenKeeper.Yaml

/-- Whatever is read satisfies `P`; reading may as well fail. -/
def Yields {α : Type} (P : α → Prop) (r : Read α) : Prop :=
  ∀ n a n', r.run n = .ok (a, n') → P a

namespace Yields
variable {α β : Type} {P : α → Prop} {Q : β → Prop}

theorem ret {a : α} (h : P a) : Yields P (pure a) := by
  intro n b n' hrun
  cases hrun
  exact h

theorem fail (u : Unread) : Yields P (throw u) :=
  fun _ _ _ h => nomatch h

theorem bind {r : Read α} {next : α → Read β} (h : Yields P r)
    (hnext : ∀ a, P a → Yields Q (next a)) : Yields Q (r >>= next) := by
  intro n b n' hrun
  rw [StateT.run_bind] at hrun
  obtain ⟨⟨a, m⟩, ha, hb⟩ := bind_eq_ok_iff.1 hrun
  exact hnext a (h n a m ha) m b n' hb

theorem any (r : Read α) : Yields (fun _ => True) r := fun _ _ _ _ => trivial

/-- Nothing need be known of what is read first. -/
theorem andThen (r : Read α) {next : α → Read β} (hnext : ∀ a, Yields Q (next a)) :
    Yields Q (r >>= next) :=
  (any r).bind fun a _ => hnext a

theorem map {r : Read α} (h : Yields P r) {f : α → β} (hf : ∀ a, P a → Q (f a)) :
    Yields Q (f <$> r) := by
  rw [map_eq_pure_bind]
  exact h.bind fun a ha => ret (hf a ha)

end Yields

namespace Place
variable {α σ : Type} {P : α → Prop} {Q : σ → Prop}

theorem refuse_yields (p : Place) (m : Misfit) : Yields P (p.refuse m) := .fail _

theorem breakOff_yields (p : Place) : Yields P p.breakOff := .fail _

theorem mismatch_yields (p : Place) (n : Node) (expected : String) :
    Yields P (p.mismatch n expected) := by
  unfold mismatch
  split
  · split <;> exact p.refuse_yields _
  · exact p.refuse_yields _
  · exact p.refuse_yields _
  · exact p.breakOff_yields
  · exact p.breakOff_yields
  · exact .fail _

theorem readOption_yields (p : Place) {read : Node → Read α} (hread : ∀ n, Yields P (read n))
    (n : Node) : Yields (fun found => ∀ a, found = some a → P a) (p.readOption read n) := by
  have hnone : Yields (fun found => ∀ a, found = some a → P a) (pure none) :=
    .ret fun _ h => nomatch h
  have hsome : ∀ n, Yields (fun found => ∀ a, found = some a → P a) (some <$> read n) :=
    fun n => (hread n).map fun a ha b hb => Option.some.inj hb ▸ ha
  refine .andThen _ fun n => ?_
  split
  · split
    · exact hnone
    · exact hsome _
  · split
    · exact hsome _
    · split
      · exact hnone
      · exact p.around.refuse_yields _
  · exact p.breakOff_yields
  · exact hnone
  · exact hsome _

end Place

/-- The field can be read into a record with `Q` without taking `Q` away. -/
def RecordField.Keeps {σ : Type} (Q : σ → Prop) (f : RecordField σ) : Prop :=
  ∀ p n s, Q s → Yields Q (f.read p n s)

theorem RecordField.of_keeps {σ α : Type} {Q : σ → Prop} {P : α → Prop} {name : String}
    {required : Bool} {read : Place → Node → Read α} {put : σ → α → σ}
    (hread : ∀ p n, Yields P (read p n)) (hput : ∀ s a, Q s → P a → Q (put s a)) :
    (RecordField.of name required read put).Keeps Q :=
  fun p n s hs => (hread p n).map fun a ha => hput s a hs ha

/-- A field that `Q` does not look at. -/
theorem RecordField.of_keeps_any {σ α : Type} {Q : σ → Prop} {name : String} {required : Bool}
    {read : Place → Node → Read α} {put : σ → α → σ} (hput : ∀ s a, Q s → Q (put s a)) :
    (RecordField.of name required read put).Keeps Q :=
  RecordField.of_keeps (fun p n => .any (read p n)) fun s a hs _ => hput s a hs

namespace Place
variable {σ : Type} {Q : σ → Prop} {fields : List (RecordField σ)}
  {other : Place → List Char → Node → σ → Read σ}

theorem readEntries_yields (p : Place) (hfields : ∀ f ∈ fields, f.Keeps Q)
    (hother : ∀ p name n s, Q s → Yields Q (other p name n s)) (entries : List (Node × Node))
    (seen : List String) {s : σ} (hs : Q s) :
    Yields Q (p.readEntries fields other entries seen s) := by
  induction entries generalizing seen s with
  | nil =>
    unfold readEntries
    split
    · exact p.refuse_yields _
    · exact .ret hs
  | cons entry rest ih =>
    obtain ⟨key, value⟩ := entry
    unfold readEntries
    refine .andThen _ fun name => ?_
    dsimp only
    split
    · next f hf =>
      split
      · exact p.refuse_yields _
      -- the record that is read so far carries the property from entry to entry
      · exact (hfields f (List.mem_of_find?_eq_some hf) _ _ s hs).bind fun s hs => ih _ hs
    · exact (hother _ _ _ s hs).bind fun s hs => ih _ hs

theorem readRecord_yields (p : Place) (title : String) (hfields : ∀ f ∈ fields, f.Keeps Q)
    (hother : ∀ p name n s, Q s → Yields Q (other p name n s)) {s : σ} (hs : Q s) (n : Node) :
    Yields Q (p.readRecord title fields other s n) := by
  refine .andThen _ fun n => ?_
  split
  · exact .andThen _ fun inside => inside.readEntries_yields hfields hother _ [] hs
  · exact p.readEntries_yields hfields hother [] [] hs
  · exact p.readEntries_yields hfields hother [] [] hs
  · exact p.mismatch_yields _ _

theorem skipOther_yields (p : Place) (name : List Char) (n : Node) (s : σ) (hs : Q s) :
    Yields Q (skipOther p name n s) :=
  .andThen _ fun _ => .ret hs

end Place

/-! ## What an entry decides -/

/-- The node that an alias leads to, or the node itself. -/
def Document.behind (d : Document) : Node → Node
  | .alias number => d.find number
  | n => n

/-- Whether a key has that name. -/
def Document.isNamed (d : Document) (name : String) (key : Node) : Bool :=
  match d.behind key with
  | .scalar _ text _ => text == name.toList
  | _ => false

/-- The values behind the keys of that name. -/
def Document.values (d : Document) (name : String) (n : Node) : List Node :=
  match d.behind n with
  | .mapping _ entries => (entries.filter fun e => d.isNamed name e.1).map Prod.snd
  | _ => []

theorem Document.isNamed_iff {d : Document} {name : String} {key : Node} :
    d.isNamed name key = true ↔ ∃ tag style, d.behind key = .scalar tag name.toList style := by
  unfold isNamed
  split
  next tag text style h => simp [h]
  next h => simpa using fun tag style heq => h tag _ style heq

theorem Document.mem_values_iff {d : Document} {name : String} {n value : Node} :
    value ∈ d.values name n ↔ ∃ tag entries key,
      d.behind n = .mapping tag entries ∧ (key, value) ∈ entries ∧ d.isNamed name key = true := by
  unfold values
  split
  next tag entries h =>
    rw [h]
    constructor
    · intro hmem
      obtain ⟨⟨key, _⟩, he, rfl⟩ := List.mem_map.1 hmem
      exact ⟨tag, entries, key, rfl, List.mem_filter.1 he⟩
    · rintro ⟨_, _, key, ⟨⟩, he⟩
      exact List.mem_map.2 ⟨(key, value), List.mem_filter.2 he, rfl⟩
  next h => simpa using fun tag entries heq => absurd heq (h tag entries)

namespace Place
variable {σ : Type} {Q : σ → Prop} {fields : List (RecordField σ)}
  {other : Place → List Char → Node → σ → Read σ} {f : RecordField σ}

theorem follow_yields (p : Place) (n : Node) : Yields (· = p.document.behind n) (p.follow n) := by
  cases n with
  | «alias» number =>
    refine .andThen _ fun followed => .andThen _ fun _ => ?_
    split
    · exact .fail _
    · exact .ret rfl
  | _ => exact .ret rfl

theorem enter_yields (p : Place) : Yields (fun q => q.document = p.document) p.enter := by
  unfold enter
  cases p.depth with
  | zero => exact .fail _
  | succ depth => exact .ret rfl

theorem readTextAs_yields (p : Place) (expected : String) (n : Node) :
    Yields (fun text => ∃ tag style, p.document.behind n = .scalar tag text style)
      (p.readTextAs expected n) := by
  refine (p.follow_yields n).bind ?_
  rintro _ rfl
  split
  · next h => exact .ret ⟨_, _, h⟩
  · exact p.mismatch_yields _ _

/-- What decided `Q` is not read again. -/
theorem readEntries_yields_of_seen (p : Place)
    (hfields : ∀ g ∈ fields, g.name ≠ f.name → g.Keeps Q)
    (hother : ∀ p name n s, Q s → Yields Q (other p name n s)) (entries : List (Node × Node))
    {seen : List String} (hseen : f.name ∈ seen) {s : σ} (hs : Q s) :
    Yields Q (p.readEntries fields other entries seen s) := by
  induction entries generalizing seen s with
  | nil =>
    unfold readEntries
    split
    · exact p.refuse_yields _
    · exact .ret hs
  | cons entry rest ih =>
    obtain ⟨key, value⟩ := entry
    unfold readEntries
    refine .andThen _ fun name => ?_
    dsimp only
    split
    next g hg =>
      split
      · exact p.refuse_yields _
      next hnew =>
        have hne : g.name ≠ f.name := fun heq => hnew (List.contains_iff_mem.2 (heq ▸ hseen))
        exact (hfields g (List.mem_of_find?_eq_some hg) hne _ _ s hs).bind fun s hs =>
          ih (List.mem_cons_of_mem _ hseen) hs
    · exact (hother _ _ _ s hs).bind fun s hs => ih hseen hs

theorem readEntries_yields_of_mem (p : Place) {key value : Node} {entries : List (Node × Node)}
    (hf : fields.find? (fun g => g.name == f.name) = some f)
    (hread : ∀ q s, q.document = p.document → Yields Q (f.read q value s))
    (hfields : ∀ g ∈ fields, g.name ≠ f.name → g.Keeps Q)
    (hother : ∀ p name n s, Q s → Yields Q (other p name n s)) (hmem : (key, value) ∈ entries)
    (hkey : p.document.isNamed f.name key = true)
    (seen : List String) (s : σ) : Yields Q (p.readEntries fields other entries seen s) := by
  have hname : Yields (· = f.name.toList) (p.readTextAs "field identifier" key) := by
    obtain ⟨tag, style, hkey⟩ := Document.isNamed_iff.1 hkey
    refine (p.follow_yields key).bind ?_
    rintro _ rfl
    rw [hkey]
    exact .ret rfl
  have hinside (key : Node) : (p.value key).document = p.document := by cases key <;> rfl
  induction entries generalizing seen s with
  | nil => cases hmem
  | cons entry rest ih =>
    unfold readEntries
    rcases List.mem_cons.1 hmem with rfl | hmem
    · refine hname.bind ?_
      rintro _ rfl
      rw [String.ofList_toList, hf]
      dsimp only
      split
      · exact p.refuse_yields _
      · exact (hread _ s (hinside key)).bind fun s hs =>
          p.readEntries_yields_of_seen hfields hother rest List.mem_cons_self hs
    · refine .andThen _ fun name => ?_
      dsimp only
      split
      · split
        · exact p.refuse_yields _
        · exact .andThen _ fun s => ih hmem _ s
      · exact .andThen _ fun s => ih hmem _ s

/-- A record has what an entry decides, and no other entry does. -/
theorem readRecord_yields_of_entry (p : Place) (title : String) {n value : Node}
    (hf : fields.find? (fun g => g.name == f.name) = some f)
    (hread : ∀ q s, q.document = p.document → Yields Q (f.read q value s))
    (hfields : ∀ g ∈ fields, g.name ≠ f.name → g.Keeps Q)
    (hother : ∀ p name n s, Q s → Yields Q (other p name n s))
    (hvalue : value ∈ p.document.values f.name n) (s : σ) :
    Yields Q (p.readRecord title fields other s n) := by
  obtain ⟨tag, entries, key, hn, hmem, hkey⟩ := Document.mem_values_iff.1 hvalue
  refine (p.follow_yields n).bind ?_
  rintro _ rfl
  rw [hn]
  refine p.enter_yields.bind fun inside hinside => ?_
  exact inside.readEntries_yields_of_mem hf (hinside ▸ hread) hfields hother hmem
    (hinside ▸ hkey) [] s

theorem readEntries_yields_of_absent (p : Place)
    (hfields : ∀ g ∈ fields, g.name ≠ f.name → g.Keeps Q)
    (hother : ∀ p name n s, Q s → Yields Q (other p name n s)) {entries : List (Node × Node)}
    (habsent : ∀ entry ∈ entries, p.document.isNamed f.name entry.1 = false)
    (seen : List String) {s : σ} (hs : Q s) :
    Yields Q (p.readEntries fields other entries seen s) := by
  induction entries generalizing seen s with
  | nil =>
    unfold readEntries
    split
    · exact p.refuse_yields _
    · exact .ret hs
  | cons entry rest ih =>
    obtain ⟨key, value⟩ := entry
    have hkey := habsent _ List.mem_cons_self
    have hrest := fun entry h => habsent entry (List.mem_cons_of_mem _ h)
    unfold readEntries
    refine (p.readTextAs_yields _ key).bind fun name hname => ?_
    dsimp only
    split
    · next g hg =>
      split
      · exact p.refuse_yields _
      · have hne : g.name ≠ f.name := by
          intro heq
          have hfound : g.name = String.ofList name := by simpa using List.find?_some hg
          obtain ⟨tag, style, hbehind⟩ := hname
          rw [← String.toList_ofList (l := name), ← hfound, heq] at hbehind
          rw [Document.isNamed_iff.2 ⟨tag, style, hbehind⟩] at hkey
          cases hkey
        exact (hfields g (List.mem_of_find?_eq_some hg) hne _ _ s hs).bind fun s hs =>
          ih hrest _ hs
    · exact (hother _ _ _ s hs).bind fun s hs => ih hrest _ hs

/-- Without an entry of that name nothing decides what the record has from the beginning. -/
theorem readRecord_yields_of_absent (p : Place) (title : String) {n : Node}
    (hfields : ∀ g ∈ fields, g.name ≠ f.name → g.Keeps Q)
    (hother : ∀ p name n s, Q s → Yields Q (other p name n s))
    (hvalues : p.document.values f.name n = []) {s : σ} (hs : Q s) :
    Yields Q (p.readRecord title fields other s n) := by
  refine (p.follow_yields n).bind ?_
  rintro _ rfl
  split
  · next tag entries hn =>
    refine p.enter_yields.bind fun inside hinside => ?_
    refine inside.readEntries_yields_of_absent hfields hother (fun entry hentry => ?_) [] hs
    rw [Bool.eq_false_iff, hinside]
    intro hnamed
    have hmem : entry.2 ∈ p.document.values f.name n :=
      Document.mem_values_iff.2 ⟨tag, entries, entry.1, hn, hentry, hnamed⟩
    rw [hvalues] at hmem
    cases hmem
  · exact p.readEntries_yields_of_absent hfields hother (fun _ h => absurd h List.not_mem_nil) [] hs
  · exact p.readEntries_yields_of_absent hfields hother (fun _ h => absurd h List.not_mem_nil) [] hs
  · exact p.mismatch_yields _ _

end Place

/-- What the root of its document yields, a text that is read yields. -/
theorem of_read_root {α : Type} {P : α → Prop} {root : Place → Node → Read α} {text : String}
    (hroot : Yields P
      (root ⟨.ofText text.toList, [], maxDepth⟩ (Document.ofText text.toList).root))
    {a : α} (h : read root text = .ok a) : P a := by
  unfold read at h
  obtain ⟨⟨b, m⟩, hrun, hrest⟩ := bind_eq_ok_iff.1 h
  have hb : P b := hroot 0 b m hrun
  dsimp only at hrest
  split at hrest
  · cases hrest
  · split at hrest
    · cases hrest
    · cases hrest
      exact hb

/-- What is yielded wherever the root lies is yielded by every text. -/
theorem of_read {α : Type} {P : α → Prop} {root : Place → Node → Read α}
    (hroot : ∀ p n, Yields P (root p n)) {text : String} {a : α} (h : read root text = .ok a) :
    P a :=
  of_read_root (hroot _ _) h

end TokenKeeper.Yaml
