import Mathlib.Data.List.Chain
import Mathlib.Data.List.TakeWhile
import TokenKeeper.Proofs.Slot.Scalar

/-!
# What a plain scalar consists of

Its words stand in the text as they are, and what joins them is blank. So a scalar without blanks is
the first word (`plainText_solid`). A text that has no mark of YAML in it is read whole
(`plainText_value`).
-/

namespace TokenKeeper.Yaml

variable {n : Nat} {c c' : Cursor} {x : Char} {i : Int} {g g' : Gap} {inFlow broken : Bool}
  {text text' word : List Char}

/-- A character within a word. -/
def isSolid (x : Char) : Bool := !(isBlank x || isBreak x)

theorem isSolid_eq_true : isSolid x = true ↔ (isBlank x || isBreak x) = false :=
  iff_of_eq (Bool.not_eq_true' _)

theorem isSolid_eq_false : isSolid x = false ↔ (isBlank x || isBreak x) = true :=
  iff_of_eq (Bool.not_eq_false' _)

theorem plainWord_rest (h : plainWord inFlow n c = .ok (word, c')) : c.rest = word ++ c'.rest := by
  induction n generalizing c word with
  | zero => cases h; rfl
  | succ n ih =>
    rw [plainWord] at h
    split at h
    · cases h; rfl
    next x hx =>
      dsimp only at h
      split_ifs at h
      · cases h; rfl
      · cases h; rfl
      · obtain ⟨⟨word, c₁⟩, hword, h⟩ := bind_eq_ok_iff.1 h
        cases h
        have hrest := ih hword
        obtain ⟨_ | ⟨y, cs⟩, i, l, k⟩ := c
        · cases hx
        · cases hx
          exact congrArg (x :: ·) hrest

theorem plainText_grows (h : plainText inFlow i n text g c = .ok (text', broken, c')) :
    text <+: text' := by
  induction n generalizing c text g with
  | zero => cases h; exact List.prefix_rfl
  | succ n ih =>
    rw [plainText] at h
    split_ifs at h
    · cases h; exact List.prefix_rfl
    obtain ⟨⟨word, c₁⟩, hword, h⟩ := bind_eq_ok_iff.1 h
    dsimp only at h
    have hstep : text <+: (if word.isEmpty then (text, g) else (text ++ g.fold ++ word, Gap.empty)).1 := by
      split_ifs
      · exact List.prefix_rfl
      · exact ⟨g.fold ++ word, by simp⟩
    generalize (if word.isEmpty then (text, g) else (text ++ g.fold ++ word, Gap.empty)) = r at h hstep
    split_ifs at h
    · cases h; exact hstep
    obtain ⟨⟨g₁, c₂⟩, hgap, h⟩ := bind_eq_ok_iff.1 h
    dsimp only at h
    split_ifs at h
    · cases h; exact hstep
    · exact hstep.trans (ih h)

/-- What has been read stays in front of what is read further. -/
theorem plainText_append (u : List Char) : plainText inFlow i n (u ++ text) g c =
    (plainText inFlow i n text g c).map fun r => (u ++ r.1, r.2) := by
  induction n generalizing c text g with
  | zero => rfl
  | succ n ih =>
    rw [plainText, plainText]
    split_ifs
    · rfl
    cases plainWord inFlow (c.rest.length + 1) c with
    | error => rfl
    | ok r =>
      obtain ⟨word, c₁⟩ := r
      simp only [bind, Except.bind]
      have hfirst : (if word.isEmpty then (u ++ text, g) else
          (u ++ text ++ g.fold ++ word, Gap.empty)) =
          (u ++ (if word.isEmpty then (text, g) else (text ++ g.fold ++ word, Gap.empty)).1,
            (if word.isEmpty then (text, g) else (text ++ g.fold ++ word, Gap.empty)).2) := by
        split_ifs
        · rfl
        · simp only [List.append_assoc]
      rw [hfirst]
      generalize (if word.isEmpty then (text, g) else (text ++ g.fold ++ word, Gap.empty)) = r
      dsimp only
      split_ifs
      · rfl
      cases Gap.read i (c₁.rest.length + 1) r.2 c₁ with
      | error => rfl
      | ok r' =>
        dsimp only
        split_ifs
        · rfl
        · exact ih

namespace Gap

/-- A gap that has begun: blanks, or line breaks. -/
inductive IsOpen : Gap → Prop
  | blanks {g : Gap} (hbroken : g.broken = false) (hne : g.blanks ≠ [])
      (hall : ∀ x ∈ g.blanks, isBlank x = true) : IsOpen g
  | breaks {g : Gap} (hbroken : g.broken = true) (hne : g.first ≠ [])
      (hall : ∀ x ∈ g.first ++ g.more, isBreak x = true) : IsOpen g

theorem IsOpen.fold (h : g.IsOpen) : ∃ x ∈ g.fold, isSolid x = false := by
  have hblank {x : Char} (hx : isBlank x = true) : isSolid x = false := by simp [isSolid, hx]
  have hbreak {x : Char} (hx : isBreak x = true) : isSolid x = false := by simp [isSolid, hx]
  cases h with
  | blanks hbroken hne hall =>
    obtain ⟨x, hx⟩ := List.exists_mem_of_ne_nil _ hne
    exact ⟨x, by simpa [Gap.fold, hbroken] using hx, hblank (hall x hx)⟩
  | breaks hbroken hne hall =>
    obtain ⟨x, hx⟩ := List.exists_mem_of_ne_nil _ hne
    simp only [Gap.fold, hbroken, Bool.not_true, Bool.false_eq_true, ↓reduceIte]
    split_ifs with hfeed hmore
    · exact ⟨' ', List.mem_singleton_self _, rfl⟩
    · obtain ⟨y, hy⟩ := List.exists_mem_of_ne_nil g.more (by simpa using hmore)
      exact ⟨y, hy, hbreak (hall y (List.mem_append_right _ hy))⟩
    · exact ⟨x, List.mem_append_left _ hx, hbreak (hall x (List.mem_append_left _ hx))⟩

theorem isBreak_of_lineBreak (hx : x ∈ c.lineBreak.1) : isBreak x = true := by
  unfold Cursor.lineBreak at hx
  split at hx
  · rw [List.mem_singleton.1 hx]; rfl
  · dsimp only at hx
    split_ifs at hx with hseparator hbreak
    · rw [List.mem_singleton.1 hx]
      simp only [Bool.or_eq_true, beq_iff_eq] at hseparator
      obtain rfl | rfl := hseparator <;> rfl
    · rw [List.mem_singleton.1 hx]; rfl
    · cases hx
  · cases hx

theorem lineBreak_ne_nil (hx : c.peek = some x) (hbreak : isBreak x = true) :
    c.lineBreak.1 ≠ [] := by
  by_cases hreturn : x = '\r' ∧ c.next.sees 0 '\n' = true
  · rw [Cursor.lineBreak_of_return (hreturn.1 ▸ hx) hreturn.2]
    exact List.cons_ne_nil _ _
  · rw [Cursor.lineBreak_of_break hx hbreak fun hr => Bool.eq_false_iff.2 fun h => hreturn ⟨hr, h⟩]
    exact List.cons_ne_nil _ _

theorem isOpen_read (h : Gap.read i n g c = .ok (g', c')) (hg : g.IsOpen) : g'.IsOpen := by
  induction n generalizing g c with
  | zero => cases h; exact hg
  | succ n ih =>
    rw [Gap.read] at h
    split at h
    next x hx =>
      cases hblank : isBlank x with
      | true =>
        simp only [hblank, ↓reduceIte] at h
        split_ifs at h with hbroken
        · exact ih h hg
        · refine ih h ?_
          cases hg with
          | blanks hbroken' hne hall =>
            exact .blanks hbroken' (by simp) (by simpa [or_imp, forall_and] using ⟨hall, hblank⟩)
          | breaks hbroken' => exact absurd hbroken' hbroken
      | false =>
        simp only [hblank, Bool.false_eq_true, ↓reduceIte] at h
        split_ifs at h with hbreak hbroken
        · refine ih h ?_
          cases hg with
          | blanks hbroken' => exact absurd (hbroken'.symm.trans hbroken) Bool.false_ne_true
          | breaks hbroken' hne hall =>
            refine .breaks hbroken' hne fun y hy => ?_
            rw [← List.append_assoc, List.mem_append] at hy
            exact hy.elim (hall y) isBreak_of_lineBreak
        · exact ih h (.breaks rfl (lineBreak_ne_nil hx hbreak) fun y hy =>
            isBreak_of_lineBreak (by simpa using hy))
        · cases h; exact hg
    · cases h; exact hg

/-- A gap that is read where one is begins. -/
theorem isOpen_read_empty (h : Gap.read i (n + 1) Gap.empty c = .ok (g', c'))
    (hgap : c.gapAt 0 = true ∧ c.endsAt 0 = false) : g'.IsOpen := by
  have hsign : c.test 0 (fun x => isBlank x || isBreak x) = true := by
    simpa [Cursor.gapAt, hgap.2] using hgap.1
  obtain ⟨x, hx, hxsign⟩ := Cursor.test_zero_iff.1 hsign
  rw [Gap.read, hx] at h
  cases hblank : isBlank x with
  | true =>
    simp only [hblank, ↓reduceIte] at h
    exact isOpen_read h (.blanks rfl (by simp [Gap.empty]) (by simpa [Gap.empty] using hblank))
  | false =>
    have hbreak : isBreak x = true := by simpa [hblank] using hxsign
    simp only [hblank, hbreak, Bool.false_eq_true, ↓reduceIte] at h
    exact isOpen_read h (.breaks rfl (lineBreak_ne_nil hx hbreak) fun y hy =>
      isBreak_of_lineBreak (by simpa using hy))

end Gap

theorem plainText_open (h : plainText inFlow i n text g c = .ok (text', broken, c')) (hg : g.IsOpen)
    (hsolid : ∀ x ∈ text', isSolid x = true) : text' = text := by
  induction n generalizing c text g with
  | zero => cases h; rfl
  | succ n ih =>
    rw [plainText] at h
    split_ifs at h
    · cases h; rfl
    obtain ⟨⟨word, c₁⟩, hword, h⟩ := bind_eq_ok_iff.1 h
    dsimp only at h
    cases hempty : word.isEmpty with
    | true =>
      simp only [hempty, ↓reduceIte] at h
      split_ifs at h
      · cases h; rfl
      obtain ⟨⟨g₁, c₂⟩, hgap, h⟩ := bind_eq_ok_iff.1 h
      dsimp only at h
      split_ifs at h
      · cases h; rfl
      · exact ih h (Gap.isOpen_read hgap hg)
    | false =>
      -- the gap before a further word would be in the text
      exfalso
      obtain ⟨x, hx, hgap⟩ := hg.fold
      have hprefix : text ++ g.fold ++ word <+: text' := by
        simp only [hempty, Bool.false_eq_true, ↓reduceIte] at h
        split_ifs at h
        · cases h; exact List.prefix_rfl
        obtain ⟨⟨g₁, c₂⟩, -, h⟩ := bind_eq_ok_iff.1 h
        dsimp only at h
        split_ifs at h
        · cases h; exact List.prefix_rfl
        · exact plainText_grows h
      have hmem := hsolid x (List.IsPrefix.subset hprefix (by simp [hx]))
      exact absurd (hgap.symm.trans hmem) Bool.false_ne_true

/-- A scalar without blanks stands where it is read. -/
theorem plainText_solid (h : plainText inFlow i n [] Gap.empty c = .ok (text, broken, c'))
    (hsolid : ∀ x ∈ text, isSolid x = true) : text <+: c.rest := by
  cases n with
  | zero => cases h; exact List.nil_prefix
  | succ n =>
    rw [plainText] at h
    split_ifs at h
    · cases h; exact List.nil_prefix
    obtain ⟨⟨word, c₁⟩, hword, h⟩ := bind_eq_ok_iff.1 h
    have hfirst : (if word.isEmpty then ([], Gap.empty) else
        ([] ++ Gap.empty.fold ++ word, Gap.empty)) = (word, Gap.empty) := by
      cases word <;> rfl
    simp only [hfirst] at h
    have hprefix : word <+: c.rest := ⟨c₁.rest, (plainWord_rest hword).symm⟩
    split_ifs at h with hends
    · cases h; exact hprefix
    obtain ⟨⟨g₁, c₂⟩, hgap, h⟩ := bind_eq_ok_iff.1 h
    dsimp only at h
    split_ifs at h
    · cases h; exact hprefix
    · rw [plainText_open h (Gap.isOpen_read_empty hgap (by simpa using hends)) hsolid]
      exact hprefix

/-! ## Texts without marks -/

/-- What may stand next to each other in a plain scalar. -/
def Joins (x y : Char) : Prop := ¬ (x = ':' ∧ isBlank y = true) ∧ ¬ (isBlank x = true ∧ y = '#')

instance : DecidableRel Joins := fun _ _ => inferInstanceAs (Decidable (_ ∧ _))

/-- Text of one line that goes on in a plain scalar: it begins and ends within a word, no colon has a
blank or the end behind it, and no number sign a blank before it. -/
structure Goes (text : List Char) : Prop where
  first : ∃ x ∈ text.head?, isSolid x = true ∧ x ≠ '#'
  last : ∀ x ∈ text.getLast?, isSolid x = true ∧ x ≠ ':'
  oneLine : ∀ x ∈ text, isBreak x = false
  joins : text.IsChain Joins

theorem Goes.of_solid (hsolid : ∀ x ∈ text, isSolid x = true) (hne : text ≠ [])
    (hfirst : ∀ x ∈ text.head?, x ≠ '#') (hlast : ∀ x ∈ text.getLast?, x ≠ ':') : Goes text where
  first := by
    obtain ⟨x, cs, rfl⟩ := List.exists_cons_of_ne_nil hne
    exact ⟨x, rfl, hsolid x List.mem_cons_self, hfirst x rfl⟩
  last x hx := ⟨hsolid x (List.mem_of_getLast? hx), hlast x hx⟩
  oneLine x hx := (Bool.or_eq_false_iff.1 (isSolid_eq_true.1 (hsolid x hx))).2
  joins := by
    have hblank {x : Char} (hx : x ∈ text) : isBlank x = false :=
      (Bool.or_eq_false_iff.1 (isSolid_eq_true.1 (hsolid x hx))).1
    refine (List.pairwise_of_forall_mem_list fun x hx y hy => ⟨fun h => ?_, fun h => ?_⟩).isChain
    · exact nomatch (hblank hy).symm.trans h.2
    · exact nomatch (hblank hx).symm.trans h.1

/-- How a plain scalar goes on behind a word. -/
def afterWord (i : Int) (n : Nat) (text : List Char) (c : Cursor) :
    Except Fault (List Char × Bool × Cursor) :=
  if !(c.gapAt 0) || c.endsAt 0 then .ok (text, false, c)
  else do
    let (g, c) ← Gap.read i (c.rest.length + 1) Gap.empty c
    if (c.column : Int) < i then return (text, g.broken, c)
    plainText false i n text g c

variable {a l k : Nat} {rest blanks : List Char}

theorem gapAt_zero_of_rest (h : ∀ x ∈ rest.head?, isSolid x = false) :
    (Cursor.mk rest a l k).gapAt 0 = true := by
  cases rest with
  | nil => rfl
  | cons y cs =>
    rw [Cursor.gapAt_zero_of_peek (x := y) rfl]
    exact isSolid_eq_false.1 (h y rfl)

theorem plainWord_solid (hsolid : ∀ x ∈ word, isSolid x = true)
    (hlast : ∀ x ∈ word.getLast?, x ≠ ':') (hrest : ∀ x ∈ rest.head?, isSolid x = false)
    (hn : word.length < n) : plainWord false n ⟨word ++ rest, a, l, k⟩ =
      .ok (word, ⟨rest, a + word.length, l, k + word.length⟩) := by
  obtain ⟨n, rfl⟩ : ∃ m, n = m + 1 := ⟨n - 1, by omega⟩
  induction word generalizing n a k with
  | nil =>
    cases rest with
    | nil => rfl
    | cons y cs =>
      have hy := isSolid_eq_false.1 (hrest y rfl)
      have hpeek : (Cursor.mk ([] ++ y :: cs) a l k).peek = some y := rfl
      simp only [plainWord, hpeek, hy, ↓reduceIte]
      rfl
  | cons x word ih =>
    obtain ⟨n, rfl⟩ : ∃ m, n = m + 1 := ⟨n - 1, by simp at hn; omega⟩
    have hx := isSolid_eq_true.1 (hsolid x List.mem_cons_self)
    have hpeek : (Cursor.mk (x :: word ++ rest) a l k).peek = some x := rfl
    have hcolon : (x == ':' && (Cursor.mk (x :: word ++ rest) a l k).gapAt 1) = false := by
      cases word with
      | nil =>
        have := hlast x rfl
        simp [this]
      | cons y word =>
        have hy := isSolid_eq_true.1 (hsolid y (by simp))
        rw [Cursor.gapAt_succ, Cursor.gapAt_zero_of_peek (x := y) rfl, hy, Bool.and_false]
    have hnext : (Cursor.mk (x :: word ++ rest) a l k).next = ⟨word ++ rest, a + 1, l, k + 1⟩ := rfl
    have hlast' : ∀ y ∈ word.getLast?, y ≠ ':' := by
      intro y hy
      refine hlast y ?_
      cases word with
      | nil => cases hy
      | cons z word => simpa using hy
    rw [plainWord]
    simp only [hpeek, hx, hcolon, hnext, Bool.false_and, Bool.or_false, Bool.false_eq_true,
      ↓reduceIte]
    rw [ih (fun y hy => hsolid y (List.mem_cons_of_mem _ hy)) hlast' n (by simpa using hn)]
    show Except.ok (x :: word, Cursor.mk _ _ _ _) = _
    simp only [List.length_cons, Nat.add_assoc, Nat.add_comm 1]

theorem Gap.read_append (hblank : ∀ x ∈ blanks, isBlank x = true) (hg : g.broken = false) :
    Gap.read i (blanks.length + n) g ⟨blanks ++ rest, a, l, k⟩ =
      Gap.read i n { g with blanks := g.blanks ++ blanks }
        ⟨rest, a + blanks.length, l, k + blanks.length⟩ := by
  induction blanks generalizing g a k with
  | nil => simp
  | cons x blanks ih =>
    have hpeek : (Cursor.mk (x :: blanks ++ rest) a l k).peek = some x := rfl
    have hnext : (Cursor.mk (x :: blanks ++ rest) a l k).next = ⟨blanks ++ rest, a + 1, l, k + 1⟩ :=
      rfl
    rw [List.length_cons, Nat.add_right_comm, Gap.read]
    simp only [hpeek, hblank x List.mem_cons_self, hg, hnext, Bool.false_eq_true, ↓reduceIte]
    rw [ih (fun y hy => hblank y (List.mem_cons_of_mem _ hy)) rfl]
    simp only [List.append_assoc, List.singleton_append, Nat.add_assoc, Nat.add_comm 1]

theorem Gap.read_stop (h : ∀ x ∈ rest.head?, isSolid x = true) :
    Gap.read i n g ⟨rest, a, l, k⟩ = .ok (g, ⟨rest, a, l, k⟩) := by
  cases n with
  | zero => rfl
  | succ n =>
    rw [Gap.read]
    cases rest with
    | nil => rfl
    | cons x cs =>
      have hpeek : (Cursor.mk (x :: cs) a l k).peek = some x := rfl
      have hsigns := Bool.or_eq_false_iff.1 (isSolid_eq_true.1 (h x rfl))
      simp only [hpeek, hsigns, Bool.false_eq_true, ↓reduceIte]

theorem Gap.read_blanks (hblank : ∀ x ∈ blanks, isBlank x = true)
    (hrest : ∀ x ∈ rest.head?, isSolid x = true) (hn : blanks.length < n)
    (hg : g.broken = false) : Gap.read i n g ⟨blanks ++ rest, a, l, k⟩ =
      .ok ({ g with blanks := g.blanks ++ blanks },
        ⟨rest, a + blanks.length, l, k + blanks.length⟩) := by
  obtain ⟨m, rfl⟩ := Nat.exists_eq_add_of_lt hn
  rw [Nat.add_assoc, Gap.read_append hblank hg, Gap.read_stop hrest]

theorem head?_dropWhile_eq {p : Char → Bool} {cs : List Char} (hx : x ∈ (cs.dropWhile p).head?) :
    p x = false := by
  have h := List.head?_dropWhile_not p cs
  rw [Option.mem_def] at hx
  simpa [hx] using h

theorem exists_span {p : Char → Bool} {value : List Char} (hx : x ∈ value.head?) (hp : p x = true) :
    ∃ front back, value = front ++ back ∧ front ≠ [] ∧ (∀ y ∈ front, p y = true) ∧
      ∀ y ∈ back.head?, p y = false := by
  refine ⟨value.takeWhile p, value.dropWhile p, List.takeWhile_append_dropWhile.symm, ?_,
    fun y hy => List.mem_takeWhile_imp hy, fun y hy => head?_dropWhile_eq hy⟩
  cases value with
  | nil => cases hx
  | cons y value =>
    cases hx
    rw [List.takeWhile_cons_of_pos hp]
    exact List.cons_ne_nil _ _

theorem Goes.behind {value : List Char} (h : Goes (word ++ (blanks ++ value))) (hne : blanks ≠ [])
    (hblank : ∀ y ∈ blanks, isBlank y = true) (hvalue : ∀ y ∈ value.head?, isBlank y = false) :
    Goes value := by
  have hjoint := (List.isChain_append.1 (List.isChain_append.1 h.joins).2.1).2
  have hend : blanks.getLast hne ∈ blanks.getLast? := List.getLast?_eq_some_getLast _
  have hlast : isBlank (blanks.getLast hne) = true := hblank _ (List.getLast_mem _)
  have hnil : value ≠ [] := by
    -- else the text would end in a blank
    rintro rfl
    have hsolid := (h.last (blanks.getLast hne) (by
      rw [List.append_nil, List.getLast?_append_of_ne_nil _ hne]
      exact hend)).1
    rw [isSolid_eq_true, hlast] at hsolid
    cases hsolid
  refine ⟨?_, fun y hy => h.last y ?_, fun y hy => h.oneLine y (by simp [hy]), hjoint.1⟩
  · obtain ⟨z, cs, rfl⟩ := List.exists_cons_of_ne_nil hnil
    refine ⟨z, rfl, ?_, fun hsign => (hjoint.2 _ hend z rfl).2 ⟨hlast, hsign⟩⟩
    rw [isSolid_eq_true, hvalue z rfl, h.oneLine z (by simp)]
    rfl
  · rw [← List.append_assoc, List.getLast?_append_of_ne_nil _ hnil]
    exact hy

/-- The first word, and the blanks and the rest behind it. -/
theorem Goes.split {value : List Char} (h : Goes value) : ∃ word tail, value = word ++ tail ∧
    word ≠ [] ∧ (∀ y ∈ word, isSolid y = true) ∧ (∀ y ∈ word.getLast?, y ≠ ':') ∧
      (tail = [] ∨ ∃ blanks value', tail = blanks ++ value' ∧ blanks ≠ [] ∧
        (∀ y ∈ blanks, isBlank y = true) ∧ Goes value') := by
  obtain ⟨x, hx, hxsolid, -⟩ := h.first
  obtain ⟨word, tail, rfl, hword, hsolid, htail⟩ := exists_span hx hxsolid
  have hblank {y : Char} (hy : y ∈ tail.head?) : isBlank y = true := by
    have hgap := isSolid_eq_false.1 (htail y hy)
    rwa [h.oneLine y (List.mem_append_right _ (List.mem_of_mem_head? hy)), Bool.or_false] at hgap
  refine ⟨word, tail, rfl, hword, hsolid, fun y hy hcolon => ?_, ?_⟩
  · cases tail with
    | nil => exact (h.last y (by simpa using hy)).2 hcolon
    | cons b tail => exact ((List.isChain_append.1 h.joins).2.2 y hy b rfl).1 ⟨hcolon, hblank rfl⟩
  · cases tail with
    | nil => exact .inl rfl
    | cons b tail =>
      have hhead : b ∈ (b :: tail).head? := rfl
      obtain ⟨blanks, value', htail', hblanks, hall, hvalue⟩ := exists_span hhead (hblank hhead)
      rw [htail'] at h
      exact .inr ⟨blanks, value', htail', hblanks, hall, h.behind hblanks hall hvalue⟩

/-- A word is read, and what follows it decides how the scalar goes on. -/
theorem plainText_step (hsolid : ∀ x ∈ word, isSolid x = true) (hne : word ≠ [])
    (hfirst : ∀ x ∈ word.head?, x ≠ '#') (hlast : ∀ x ∈ word.getLast?, x ≠ ':')
    (hrest : ∀ x ∈ rest.head?, isSolid x = false) (hk : k ≠ 0) :
    plainText false i (n + 1) text g ⟨word ++ rest, a, l, k⟩ =
      afterWord i n (text ++ g.fold ++ word) ⟨rest, a + word.length, l, k + word.length⟩ := by
  have hmark : (Cursor.mk (word ++ rest) a l k).atDocumentMark = false := by
    simp [Cursor.atDocumentMark, beq_false_of_ne hk]
  have hsees : (Cursor.mk (word ++ rest) a l k).sees 0 '#' = false := by
    obtain ⟨x, cs, rfl⟩ := List.exists_cons_of_ne_nil hne
    rw [Cursor.sees, Cursor.test_zero_of_peek (x := x) rfl]
    exact beq_false_of_ne (hfirst x rfl)
  have hempty : word.isEmpty = false := by simpa using hne
  have hread := plainWord_solid (n := (word ++ rest).length + 1) (a := a) (l := l) (k := k) hsolid
    hlast hrest (by rw [List.length_append]; omega)
  rw [plainText, hmark, hsees]
  simp only [Bool.or_self, Bool.false_eq_true, ↓reduceIte, hread, bind, Except.bind, hempty,
    Bool.not_false, Bool.true_and]
  simp only [afterWord, bind, Except.bind, decide_eq_true_eq]
  rfl

/-- A text without marks is read to its end. -/
theorem plainText_value {value : List Char} (hvalue : Goes value)
    (hrest : ∀ x ∈ rest.head?, isSolid x = false) (hn : (value ++ rest).length < n) (hk : k ≠ 0)
    (hi : i ≤ k) : ∃ m, rest.length < m ∧
      plainText false i n text g ⟨value ++ rest, a, l, k⟩ =
        afterWord i m (text ++ g.fold ++ value)
          ⟨rest, a + value.length, l, k + value.length⟩ := by
  -- word by word: each is read in one step, and the blanks behind it stay as they are
  induction n generalizing value text g a k with
  | zero => omega
  | succ n ih =>
    obtain ⟨x, hx, -, hxsign⟩ := hvalue.first
    obtain ⟨word, tail, rfl, hne, hsolid, hlast, htail⟩ := hvalue.split
    have hfirst : ∀ y ∈ word.head?, y ≠ '#' := by
      rw [List.head?_append_of_ne_nil _ hne] at hx
      intro y hy
      exact Option.some.inj (hx.symm.trans hy) ▸ hxsign
    have hlength := List.length_pos_iff.2 hne
    rw [List.append_assoc]
    rcases htail with rfl | ⟨blanks, value', rfl, hblanks, hblank, hvalue'⟩
    · simp only [List.append_nil, List.nil_append, List.length_append] at hn ⊢
      exact ⟨n, by omega, plainText_step hsolid hne hfirst hlast hrest hk⟩
    · obtain ⟨y, hy, hysolid, -⟩ := hvalue'.first
      have hvaluehead : ∀ z ∈ (value' ++ rest).head?, isSolid z = true := by
        intro z hz
        cases value' with
        | nil => cases hy
        | cons =>
          obtain rfl := Option.some.inj (hy.symm.trans hz)
          exact hysolid
      have hstop : ∀ z ∈ (blanks ++ value' ++ rest).head?, isSolid z = false := by
        intro z hz
        obtain ⟨w, cs, rfl⟩ := List.exists_cons_of_ne_nil hblanks
        cases hz
        rw [isSolid_eq_false, hblank z (by simp), Bool.true_or]
      have hends : (Cursor.mk (blanks ++ value' ++ rest) (a + word.length) l
          (k + word.length)).endsAt 0 = false := by
        obtain ⟨w, cs, rfl⟩ := List.exists_cons_of_ne_nil hblanks
        rfl
      have hgap := Gap.read_blanks (i := i) (n := (blanks ++ value' ++ rest).length + 1)
        (a := a + word.length) (l := l) (k := k + word.length) (g := Gap.empty) hblank hvaluehead
        (by simp only [List.length_append]; omega) rfl
      simp only [List.length_append] at hn
      obtain ⟨m, hm, hvalue⟩ := @ih ⟨blanks, [], [], false⟩ (text ++ g.fold ++ word)
        (a + word.length + blanks.length) (k + word.length + blanks.length) value' hvalue'
        (by simp only [List.length_append]; omega) (by omega) (by omega)
      refine ⟨m, hm, ?_⟩
      rw [plainText_step hsolid hne hfirst hlast hstop hk, afterWord, gapAt_zero_of_rest hstop, hends]
      rw [← List.append_assoc] at hgap
      simp only [hgap, Bool.not_true, Bool.or_self, Bool.false_eq_true, ↓reduceIte, bind, Except.bind]
      rw [if_neg (by omega)]
      refine hvalue.trans ?_
      simp only [Gap.fold, Bool.not_false, ↓reduceIte, List.append_assoc, List.length_append,
        Nat.add_assoc]

/-! ## Where a scalar ends -/

theorem plainText_remark {cs : List Char} {i : Int} {a k : Nat} {g : Gap} (hk : k ≠ 0)
    (hcs : ∀ x ∈ cs.head?, x = '#') : plainText false i (n + 1) text g ⟨cs, a, l, k⟩ =
      .ok (text, g.broken, ⟨cs, a, l, k⟩) := by
  have hmark : (Cursor.mk cs a l k).atDocumentMark = false := by
    simp [Cursor.atDocumentMark, beq_false_of_ne hk]
  cases cs with
  | nil =>
    rw [plainText, hmark]
    rfl
  | cons x cs =>
    obtain rfl := hcs x rfl
    rw [plainText, hmark]
    rfl

/-- At a break the next line begins, whatever the column is. -/
theorem Gap.read_of_break {g : Gap} {cs : List Char} {a k : Nat} {x : Char} (hx : x ∈ cs.head?)
    (hbreak : isBreak x = true) (hg : g.broken = false) : Gap.read i (n + 1) g ⟨cs, a, l, k⟩ =
      Gap.read i n ⟨[], (Cursor.mk cs a l 0).lineBreak.1, [], true⟩
        (Cursor.mk cs a l 0).lineBreak.2 := by
  have hpeek : (Cursor.mk cs a l k).peek = some x := hx
  rw [Gap.read]
  simp only [hpeek, isBlank_of_isBreak hbreak, hbreak, hg, Bool.false_eq_true, ↓reduceIte]
  rw [Cursor.lineBreak_column hx hbreak]

theorem afterWord_of_blanks {blanks tail : List Char} {a k : Nat}
    (hblank : ∀ x ∈ blanks, isBlank x = true)
    (hhead : ∀ x ∈ (blanks ++ tail).head?, isSolid x = false) (hne : blanks ++ tail ≠ []) :
    afterWord i n u ⟨blanks ++ tail, a, l, k⟩ =
      (Gap.read i (tail.length + 1) { Gap.empty with blanks := blanks }
        ⟨tail, a + blanks.length, l, k + blanks.length⟩).bind fun r =>
          if (r.2.column : Int) < i then .ok (u, r.1.broken, r.2)
          else plainText false i n u r.1 r.2 := by
  have hends : (Cursor.mk (blanks ++ tail) a l k).endsAt 0 = false := by
    obtain ⟨x, cs, hcs⟩ := List.exists_cons_of_ne_nil hne
    rw [hcs]
    rfl
  have hread : Gap.read i (blanks.length + (tail.length + 1)) Gap.empty ⟨blanks ++ tail, a, l, k⟩ = _ :=
    Gap.read_append hblank rfl
  rw [← Nat.add_assoc, ← List.length_append] at hread
  rw [afterWord, gapAt_zero_of_rest hhead, hends, if_neg (by simp)]
  show (Gap.read i ((blanks ++ tail).length + 1) Gap.empty _).bind _ = _
  rw [hread]
  rfl

variable {s : Slot}

/-- Inside brackets the word is no scalar, for there a scalar ends at a brace. -/
theorem plainText_ne_word {a k : Nat} (hk : k ≠ 0) (h : plainText true i (n + 1) [] Gap.empty
    ⟨s.word ++ s.rest, a, l, k⟩ = .ok (text, broken, c)) : text ≠ s.word := by
  have hmark : (Cursor.mk (s.word ++ s.rest) a l k).atDocumentMark = false := by
    simp [Cursor.atDocumentMark, beq_false_of_ne hk]
  have hsees : (Cursor.mk (s.word ++ s.rest) a l k).sees 0 '#' = false := rfl
  have hword : plainWord true ((s.word ++ s.rest).length + 1) ⟨s.word ++ s.rest, a, l, k⟩ =
      .ok (['$'], ⟨'{' :: (s.name ++ ['}'] ++ s.rest), a + 1, l, k + 1⟩) := rfl
  rw [plainText, hmark, hsees] at h
  simp only [hword, bind, Except.bind] at h
  cases h
  simp [Slot.word, Gap.empty, Gap.fold]

end TokenKeeper.Yaml
