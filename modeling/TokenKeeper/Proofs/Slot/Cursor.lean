import Mathlib.Tactic.SplitIfs
import TokenKeeper.Yaml.Cursor

/-!
# Two texts that differ in one word

A text has a word in it, and another text has a value in that place; a blank comes before. Places in
the two texts correspond (`Near`): before the word both have the same characters ahead of them, up to
the word or the value, and behind it the same rest. Whoever looks ahead from a place before the word
sees the same in both as long as nothing but the blank lies between (`Clear`).
-/

namespace TokenKeeper.Yaml

/-- The word is a placeholder's name in its braces. The value to be put in its place is given by its
first character and the others; `rest` is what comes behind. -/
structure Slot where
  name : List Char
  first : Char
  others : List Char
  rest : List Char
  isBlank_first : isBlank first = false
  isBreak_first : isBreak first = false
  first_ne : first ≠ '#'

namespace Slot

def word (s : Slot) : List Char := '$' :: '{' :: (s.name ++ ['}'])

def value (s : Slot) : List Char := s.first :: s.others

theorem first_ne_space (s : Slot) : s.first ≠ ' ' := fun h => by
  have := s.isBlank_first
  rw [h] at this
  cases this

theorem first_ne_tab (s : Slot) : s.first ≠ '\t' := fun h => by
  have := s.isBlank_first
  rw [h] at this
  cases this

/-- How much of the text is left at the word. -/
def size (s : Slot) : Nat := (s.word ++ s.rest).length

end Slot

variable {s : Slot} {b n : Nat} {c c' d d' : Cursor} {x : Char} {cs : List Char} {p : Char → Bool}

/-- Corresponding places from which the next character is the same. The number is what must be left
of the text for the word not to have been passed. -/
inductive Clear (s : Slot) : Nat → Cursor → Cursor → Prop
  | ahead (x : Char) (cs : List Char) (i l k : Nat)
      (hlast : ∀ y ∈ (x :: cs).getLast?, isBlank y = true) :
      Clear s s.size ⟨x :: (cs ++ (s.word ++ s.rest)), i, l, k⟩
        ⟨x :: (cs ++ (s.value ++ s.rest)), i, l, k⟩
  | behind (cs : List Char) (i j l k : Nat) (hi : i ≠ 0) (hj : j ≠ 0)
      (hij : i + s.value.length = j + s.word.length) : Clear s 0 ⟨cs, i, l, k⟩ ⟨cs, j, l, k⟩

/-- Corresponding places, one of them perhaps that of the word. -/
inductive Near (s : Slot) : Nat → Cursor → Cursor → Prop
  | clear {b : Nat} {c d : Cursor} (h : Clear s b c d) : Near s b c d
  | slot (i l k : Nat) (hi : i ≠ 0) (hk : k ≠ 0) :
      Near s s.size ⟨s.word ++ s.rest, i, l, k⟩ ⟨s.value ++ s.rest, i, l, k⟩

/-- A place from which the word has been passed. -/
def Cursor.Passed (b : Nat) (c : Cursor) : Prop := c.rest.length < b

namespace Clear

theorem peek_eq (h : Clear s b c d) : d.peek = c.peek := by cases h <;> rfl

theorem column_eq (h : Clear s b c d) : d.column = c.column := by cases h <;> rfl

theorem line_eq (h : Clear s b c d) : d.line = c.line := by cases h <;> rfl

theorem test_zero (h : Clear s b c d) (p : Char → Bool) : d.test 0 p = c.test 0 p := by
  cases h <;> rfl

theorem sees_zero (h : Clear s b c d) (x : Char) : d.sees 0 x = c.sees 0 x := h.test_zero _

theorem endsAt_zero (h : Clear s b c d) : d.endsAt 0 = c.endsAt 0 := by cases h <;> rfl

theorem gapAt_zero (h : Clear s b c d) : d.gapAt 0 = c.gapAt 0 := by cases h <;> rfl

theorem next (h : Clear s b c d) (hx : c.peek = some x) : Near s b c.next d.next := by
  cases h with
  | ahead y cs i l k hlast =>
    cases cs with
    | nil => exact .slot (i + 1) l (k + 1) i.succ_ne_zero k.succ_ne_zero
    | cons z cs => exact .clear (.ahead z cs (i + 1) l (k + 1) fun w hw => hlast w (by simpa using hw))
  | behind cs i j l k hi hj hij =>
    cases cs with
    | nil => cases hx
    | cons z cs =>
      exact .clear (.behind cs (i + 1) (j + 1) l (k + 1) i.succ_ne_zero j.succ_ne_zero (by omega))

/-- Behind a character that is no blank the word is not next. -/
theorem next_of_solid (h : Clear s b c d) (hx : c.peek = some x) (hsolid : isBlank x = false) :
    Clear s b c.next d.next := by
  cases h with
  | ahead y cs i l k hlast =>
    cases cs with
    | nil =>
      obtain rfl := Option.some.inj hx
      exact nomatch hsolid.symm.trans (hlast _ rfl)
    | cons z cs => exact .ahead z cs (i + 1) l (k + 1) fun w hw => hlast w (by simpa using hw)
  | behind cs i j l k hi hj hij =>
    cases cs with
    | nil => cases hx
    | cons z cs =>
      exact .behind cs (i + 1) (j + 1) l (k + 1) i.succ_ne_zero j.succ_ne_zero (by omega)

end Clear

namespace Cursor

theorem test_succ (c : Cursor) (n : Nat) (p : Char → Bool) : c.test (n + 1) p = c.next.test n p := by
  unfold test next
  cases h : c.rest <;> simp [h]

theorem endsAt_succ (c : Cursor) (n : Nat) : c.endsAt (n + 1) = c.next.endsAt n := by
  unfold endsAt next
  cases h : c.rest <;> simp [h]

theorem gapAt_succ (c : Cursor) (n : Nat) : c.gapAt (n + 1) = c.next.gapAt n := by
  rw [gapAt, gapAt, test_succ, endsAt_succ]

theorem sees_succ (c : Cursor) (n : Nat) (x : Char) : c.sees (n + 1) x = c.next.sees n x :=
  c.test_succ n _

theorem test_zero_iff {c : Cursor} {p : Char → Bool} :
    c.test 0 p = true ↔ ∃ x, c.peek = some x ∧ p x = true := by
  unfold test peek
  cases c.rest <;> simp

theorem sees_zero_iff {c : Cursor} {x : Char} : c.sees 0 x = true ↔ c.peek = some x := by
  rw [sees, test_zero_iff]
  simp

theorem test_zero_of_peek (h : c.peek = some x) (p : Char → Bool) : c.test 0 p = p x := by
  rw [Bool.eq_iff_iff, test_zero_iff, h]
  simp

theorem gapAt_zero_of_peek {c : Cursor} {x : Char} (h : c.peek = some x) :
    c.gapAt 0 = (isBlank x || isBreak x) := by
  unfold peek at h
  unfold gapAt endsAt test
  cases hrest : c.rest with
  | nil => rw [hrest] at h; cases h
  | cons y cs =>
    rw [hrest] at h
    obtain rfl := Option.some.inj h
    simp

end Cursor

namespace Clear

theorem test_one (h : Clear s b c d) (hx : c.peek = some x) (hsolid : isBlank x = false)
    (p : Char → Bool) : d.test 1 p = c.test 1 p := by
  rw [Cursor.test_succ, Cursor.test_succ, (h.next_of_solid hx hsolid).test_zero]

theorem sees_one (h : Clear s b c d) (hx : c.peek = some x) (hsolid : isBlank x = false) (y : Char) :
    d.sees 1 y = c.sees 1 y := h.test_one hx hsolid _

theorem gapAt_one (h : Clear s b c d) (hx : c.peek = some x) (hsolid : isBlank x = false) :
    d.gapAt 1 = c.gapAt 1 := by
  rw [Cursor.gapAt_succ, Cursor.gapAt_succ, (h.next_of_solid hx hsolid).gapAt_zero]

/-- Three equal marks and a gap behind them are seen or not from both places. -/
theorem marks_eq (h : Clear s b c d) (hx : isBlank x = false) :
    (d.gapAt 3 && (d.sees 0 x && d.sees 1 x && d.sees 2 x)) =
      (c.gapAt 3 && (c.sees 0 x && c.sees 1 x && c.sees 2 x)) := by
  have hstep {c d : Cursor} (h : Clear s b c d) (hc : c.sees 0 x = true) : Clear s b c.next d.next :=
    h.next_of_solid (Cursor.sees_zero_iff.1 hc) hx
  simp only [Cursor.gapAt_succ, Cursor.sees_succ]
  rw [h.sees_zero]
  cases h0 : c.sees 0 x with
  | false => simp
  | true =>
    have h1 := hstep h h0
    rw [h1.sees_zero]
    cases h1' : c.next.sees 0 x with
    | false => simp
    | true =>
      have h2 := hstep h1 h1'
      rw [h2.sees_zero]
      cases h2' : c.next.next.sees 0 x with
      | false => simp
      | true => rw [(hstep h2 h2').gapAt_zero]

theorem atDocumentMark (h : Clear s b c d) : d.atDocumentMark = c.atDocumentMark := by
  have hmark (c : Cursor) : c.atDocumentMark = (c.column == 0 &&
      (c.gapAt 3 && (c.sees 0 '-' && c.sees 1 '-' && c.sees 2 '-') ||
        c.gapAt 3 && (c.sees 0 '.' && c.sees 1 '.' && c.sees 2 '.'))) := by
    rw [← Bool.and_or_distrib_left, ← Bool.and_assoc]
    rfl
  rw [hmark, hmark, h.column_eq, h.marks_eq rfl, h.marks_eq rfl]

theorem skip_mark (h : Clear s b c d) (hmark : c.atDocumentMark = true) :
    Clear s b (c.skip 3) (d.skip 3) := by
  have hskip (x : Char) (hx : isBlank x = false)
      (hthree : (c.sees 0 x && c.sees 1 x && c.sees 2 x) = true) :
      Clear s b (c.skip 3) (d.skip 3) := by
    simp only [Cursor.sees_succ, Bool.and_eq_true, Cursor.sees_zero_iff] at hthree
    obtain ⟨⟨h0, h1⟩, h2⟩ := hthree
    exact ((h.next_of_solid h0 hx).next_of_solid h1 hx).next_of_solid h2 hx
  simp only [Cursor.atDocumentMark, Bool.and_eq_true, Bool.or_eq_true] at hmark
  obtain ⟨-, hdash | hdot⟩ := hmark
  · exact hskip '-' rfl (by simpa using hdash)
  · exact hskip '.' rfl (by simpa using hdot)

end Clear

/-! ## Moving on -/

namespace Cursor

/-- The second place is the first or behind it. -/
structure LeadsTo (c c' : Cursor) : Prop where
  suffix : c'.rest <:+ c.rest
  index_le : c.index ≤ c'.index
  order : c.line < c'.line ∨ c.line = c'.line ∧ c.column ≤ c'.column

namespace LeadsTo

@[grind .]
theorem refl (c : Cursor) : c.LeadsTo c := ⟨List.suffix_rfl, Nat.le_refl _, .inr ⟨rfl, Nat.le_refl _⟩⟩

@[grind →]
theorem trans {c'' : Cursor} (h : c.LeadsTo c') (h' : c'.LeadsTo c'') : c.LeadsTo c'' := by
  have := h.index_le
  have := h'.index_le
  have := h.order
  have := h'.order
  exact ⟨List.IsSuffix.trans h'.suffix h.suffix, by omega, by omega⟩

theorem length_le (h : c.LeadsTo c') : c'.rest.length ≤ c.rest.length :=
  List.IsSuffix.length_le h.suffix

theorem passed (h : c.LeadsTo c') (hc : c.Passed b) : c'.Passed b := Nat.lt_of_le_of_lt h.length_le hc

end LeadsTo

@[grind .]
theorem leadsTo_next (c : Cursor) : c.LeadsTo c.next := by
  obtain ⟨_ | ⟨x, cs⟩, i, l, k⟩ := c
  · exact .refl _
  · exact ⟨List.suffix_cons x cs, Nat.le_succ i, .inr ⟨rfl, Nat.le_succ k⟩⟩

theorem length_next (h : c.peek = some x) : c.next.rest.length + 1 = c.rest.length := by
  obtain ⟨_ | ⟨y, cs⟩, i, l, k⟩ := c
  · cases h
  · rfl

@[grind .]
theorem leadsTo_skip (c : Cursor) (n : Nat) : c.LeadsTo (c.skip n) := by
  induction n generalizing c with
  | zero => exact .refl c
  | succ n ih => exact c.leadsTo_next.trans (ih c.next)

theorem length_skip (h : c.peek = some x) (hn : 0 < n) :
    (c.skip n).rest.length < c.rest.length := by
  obtain ⟨k, rfl⟩ := Nat.exists_eq_succ_of_ne_zero (Nat.ne_of_gt hn)
  have hlen := length_next h
  have hle : (c.next.skip k).rest.length ≤ c.next.rest.length := (c.next.leadsTo_skip k).length_le
  show (c.next.skip k).rest.length < _
  omega

@[grind .]
theorem leadsTo_lineBreak (c : Cursor) : c.LeadsTo c.lineBreak.2 := by
  obtain ⟨cs, i, l, k⟩ := c
  have hbehind {cs' : List Char} (h : cs' <:+ cs) (n : Nat) :
      (Cursor.mk cs i l k).LeadsTo ⟨cs', i + n, l + 1, 0⟩ :=
    ⟨h, Nat.le_add_right i n, .inl (Nat.lt_succ_self l)⟩
  unfold lineBreak
  split
  next cs' h =>
    obtain rfl : cs = '\r' :: '\n' :: cs' := h
    exact hbehind ⟨['\r', '\n'], rfl⟩ 2
  next x cs' _ h =>
    obtain rfl : cs = x :: cs' := h
    dsimp only
    split_ifs
    · exact hbehind (List.suffix_cons x cs') 1
    · exact hbehind (List.suffix_cons x cs') 1
    · exact .refl _
  · exact .refl _

@[grind .]
theorem leadsTo_span (c : Cursor) (p : Char → Bool) : c.LeadsTo (c.span p).2 :=
  ⟨List.drop_suffix _ _, Nat.le_add_right _ _, .inr ⟨rfl, Nat.le_add_right _ _⟩⟩

@[grind .]
theorem leadsTo_skipWhile (c : Cursor) (p : Char → Bool) : c.LeadsTo (c.skipWhile p) :=
  c.leadsTo_span p

@[grind .]
theorem leadsTo_skipComment (c : Cursor) : c.LeadsTo c.skipComment := by
  unfold skipComment
  split
  · exact c.leadsTo_skipWhile _
  · exact .refl c

namespace LeadsTo

@[grind →]
theorem of_next (h : c.next.LeadsTo c') : c.LeadsTo c' := c.leadsTo_next.trans h

@[grind →]
theorem of_skip (h : (c.skip n).LeadsTo c') : c.LeadsTo c' := (c.leadsTo_skip n).trans h

@[grind →]
theorem of_lineBreak (h : c.lineBreak.2.LeadsTo c') : c.LeadsTo c' := c.leadsTo_lineBreak.trans h

@[grind →]
theorem of_span (h : (c.span p).2.LeadsTo c') : c.LeadsTo c' := (c.leadsTo_span p).trans h

@[grind →]
theorem of_skipWhile (h : (c.skipWhile p).LeadsTo c') : c.LeadsTo c' :=
  (c.leadsTo_skipWhile p).trans h

@[grind →]
theorem of_skipComment (h : c.skipComment.LeadsTo c') : c.LeadsTo c' :=
  c.leadsTo_skipComment.trans h

end LeadsTo

namespace LeadsTo

@[grind ←]
theorem next (h : c.LeadsTo c') : c.LeadsTo c'.next := h.trans c'.leadsTo_next

@[grind ←]
theorem lineBreak (h : c.LeadsTo c') : c.LeadsTo c'.lineBreak.2 := h.trans c'.leadsTo_lineBreak

@[grind ←]
theorem span (h : c.LeadsTo c') (p : Char → Bool) : c.LeadsTo (c'.span p).2 :=
  h.trans (c'.leadsTo_span p)

@[grind ←]
theorem skipWhile (h : c.LeadsTo c') (p : Char → Bool) : c.LeadsTo (c'.skipWhile p) :=
  h.trans (c'.leadsTo_skipWhile p)

@[grind ←]
theorem skipComment (h : c.LeadsTo c') : c.LeadsTo c'.skipComment := h.trans c'.leadsTo_skipComment

end LeadsTo

theorem span_of_pos (hx : c.peek = some x) (hp : p x = true) :
    c.span p = (x :: (c.next.span p).1, (c.next.span p).2) := by
  obtain ⟨_ | ⟨y, cs⟩, i, l, k⟩ := c
  · cases hx
  obtain rfl := Option.some.inj hx
  have htake : (y :: cs).takeWhile p = y :: cs.takeWhile p := List.takeWhile_cons_of_pos hp
  simp only [span, next, htake, List.length_cons, List.drop_succ_cons, Prod.mk.injEq, true_and,
    Cursor.mk.injEq]
  omega

theorem span_of_neg (h : c.test 0 p = false) : c.span p = ([], c) := by
  obtain ⟨_ | ⟨y, cs⟩, i, l, k⟩ := c
  · rfl
  have hy : p y = false := by simpa [test] using h
  simp [span, List.takeWhile_cons_of_neg (show ¬ p y = true by simp [hy])]

end Cursor

namespace Near

theorem clear_or_slot (h : Near s b c d) : Clear s b c d ∨ (b = s.size ∧
    ∃ i l k, i ≠ 0 ∧ k ≠ 0 ∧ c = ⟨s.word ++ s.rest, i, l, k⟩ ∧ d = ⟨s.value ++ s.rest, i, l, k⟩) := by
  cases h with
  | clear h => exact .inl h
  | slot i l k hi hk => exact .inr ⟨rfl, i, l, k, hi, hk, rfl, rfl⟩

theorem column_eq (h : Near s b c d) : d.column = c.column := by
  cases h with
  | clear h => exact h.column_eq
  | slot => rfl

theorem line_eq (h : Near s b c d) : d.line = c.line := by
  cases h with
  | clear h => exact h.line_eq
  | slot => rfl

/-- Any move from the word passes it. -/
theorem passed_next (i l k : Nat) : (Cursor.mk (s.word ++ s.rest) i l k).next.Passed s.size :=
  Nat.lt_succ_self _

end Near

/-- What a test that holds of no blank sees lies before the word. -/
theorem Clear.span (h : Clear s b c d) (hp : ∀ x, p x = true → isBlank x = false) :
    (d.span p).1 = (c.span p).1 ∧ Clear s b (c.span p).2 (d.span p).2 := by
  induction hn : c.rest.length using Nat.strongRecOn generalizing c d with
  | _ n ih =>
    cases htest : c.test 0 p with
    | false =>
      rw [Cursor.span_of_neg htest, Cursor.span_of_neg ((h.test_zero p).trans htest)]
      exact ⟨rfl, h⟩
    | true =>
      obtain ⟨x, hx, hpx⟩ := Cursor.test_zero_iff.1 htest
      have hlen := Cursor.length_next hx
      obtain ⟨hfst, hsnd⟩ := ih _ (by omega) (h.next_of_solid hx (hp x hpx)) rfl
      rw [Cursor.span_of_pos hx hpx, Cursor.span_of_pos (h.peek_eq.trans hx) hpx, hfst]
      exact ⟨rfl, hsnd⟩

/-- A test that the value does not begin with either comes to the same place or passes the word. -/
theorem Near.span (h : Near s b c d) (hp : p '$' = true ∨ p s.first = false) :
    (c.span p).2.Passed b ∨ (d.span p).1 = (c.span p).1 ∧ Near s b (c.span p).2 (d.span p).2 := by
  induction hn : c.rest.length using Nat.strongRecOn generalizing c d with
  | _ n ih =>
    cases h with
    | clear h =>
      cases htest : c.test 0 p with
      | false =>
        rw [Cursor.span_of_neg htest, Cursor.span_of_neg ((h.test_zero p).trans htest)]
        exact .inr ⟨rfl, .clear h⟩
      | true =>
        obtain ⟨x, hx, hpx⟩ := Cursor.test_zero_iff.1 htest
        have hlen := Cursor.length_next hx
        rw [Cursor.span_of_pos hx hpx, Cursor.span_of_pos (h.peek_eq.trans hx) hpx]
        rcases ih _ (by omega) (h.next hx) rfl with hpassed | ⟨hfst, hsnd⟩
        · exact .inl hpassed
        · exact .inr ⟨congrArg (x :: ·) hfst, hsnd⟩
    | slot i l k hi hk =>
      cases hdollar : p '$' with
      | false =>
        have hfirst : p s.first = false := hp.resolve_left (by simp [hdollar])
        rw [Cursor.span_of_neg (by simp [Cursor.test, Slot.word, hdollar]),
          Cursor.span_of_neg (by simp [Cursor.test, Slot.value, hfirst])]
        exact .inr ⟨rfl, .slot i l k hi hk⟩
      | true =>
        rw [Cursor.span_of_pos (x := '$') rfl hdollar]
        exact .inl ((Cursor.leadsTo_span _ p).passed (passed_next i l k))

theorem Near.skipComment (h : Near s b c d) :
    c.skipComment.Passed b ∨ Near s b c.skipComment d.skipComment := by
  have hsees : d.sees 0 '#' = c.sees 0 '#' := by
    cases h with
    | clear h => exact h.sees_zero '#'
    | slot => simp [Cursor.sees, Cursor.test, Slot.word, Slot.value, s.first_ne]
  unfold Cursor.skipComment
  rw [hsees]
  split
  · exact (h.span (.inl rfl)).imp_right And.right
  · exact .inr h

namespace Near

theorem test_zero (h : Near s b c d) (hdollar : p '$' = false) (hfirst : p s.first = false) :
    d.test 0 p = c.test 0 p := by
  cases h with
  | clear h => exact h.test_zero p
  | slot => simp [Cursor.test, Slot.word, Slot.value, hdollar, hfirst]

theorem endsAt_zero (h : Near s b c d) : d.endsAt 0 = c.endsAt 0 := by
  cases h with
  | clear h => exact h.endsAt_zero
  | slot => rfl

theorem atLineEnd (h : Near s b c d) : d.atLineEnd = c.atLineEnd := by
  rw [Cursor.atLineEnd, Cursor.atLineEnd, h.endsAt_zero, h.test_zero rfl s.isBreak_first]

theorem atDocumentMark (h : Near s b c d) : d.atDocumentMark = c.atDocumentMark := by
  cases h with
  | clear h => exact h.atDocumentMark
  | slot i l k hi hk => simp [Cursor.atDocumentMark, beq_false_of_ne hk]

theorem length_eq (h : Near s b c d) :
    (b = 0 ∧ d.rest.length = c.rest.length) ∨
      (b = s.size ∧ d.rest.length + s.word.length = c.rest.length + s.value.length) := by
  cases h with
  | clear h =>
    cases h with
    | ahead x cs i l k hlast =>
      right
      simp only [List.length_cons, List.length_append, true_and]
      omega
    | behind => exact .inl ⟨rfl, rfl⟩
  | slot =>
    right
    simp only [List.length_append, true_and]
    omega

theorem index_eq (h : Near s b c d) :
    (b = 0 ∧ c.index + s.value.length = d.index + s.word.length) ∨ (b = s.size ∧ d.index = c.index) := by
  cases h with
  | clear h =>
    cases h with
    | ahead => exact .inr ⟨rfl, rfl⟩
    | behind cs i j l k hi hj hij => exact .inl ⟨rfl, hij⟩
  | slot => exact .inr ⟨rfl, rfl⟩

theorem index_beq (h : Near s b c d) (h' : Near s b c' d') :
    (d'.index == d.index) = (c'.index == c.index) := by
  have hsize : s.size ≠ 0 := Nat.succ_ne_zero _
  have := h.index_eq
  have := h'.index_eq
  rw [Bool.eq_iff_iff, beq_iff_eq, beq_iff_eq]
  omega

theorem length_lt (h : Near s b c d) (h' : Near s b c' d')
    (hlt : c'.rest.length < c.rest.length) : d'.rest.length < d.rest.length := by
  have hsize : s.size ≠ 0 := Nat.succ_ne_zero _
  have := h.length_eq
  have := h'.length_eq
  omega

end Near

theorem Near.clear_of_zero (h : Near s 0 c d) : Clear s 0 c d := by
  refine h.clear_or_slot.resolve_right fun ⟨hsize, _⟩ => ?_
  exact absurd hsize.symm (Nat.succ_ne_zero _)

theorem Cursor.not_passed_zero : ¬ c.Passed 0 := Nat.not_lt_zero _

theorem Clear.rest_ne (h : Clear s b c d) (hb : b ≠ 0) : c.rest ≠ s.word ++ s.rest := by
  cases h with
  | ahead x cs =>
    intro hc
    have hlength := congrArg List.length hc
    simp only [List.length_cons, List.length_append] at hlength
    omega
  | behind => exact absurd rfl hb

theorem Near.slot_of_rest (h : Near s s.size c d) (hc : c.rest = s.word ++ s.rest) :
    ∃ i k, i ≠ 0 ∧ k ≠ 0 ∧ c = ⟨s.word ++ s.rest, i, c.line, k⟩ ∧
      d = ⟨s.value ++ s.rest, i, c.line, k⟩ := by
  rcases h.clear_or_slot with hclear | ⟨-, i, l, k, hi, hk, rfl, rfl⟩
  · exact absurd hc (hclear.rest_ne (Nat.succ_ne_zero _))
  · exact ⟨i, k, hi, hk, rfl, rfl⟩

theorem Near.skipBlanks (h : Near s b c d) :
    (c.skipWhile isBlank).Passed b ∨ Near s b (c.skipWhile isBlank) (d.skipWhile isBlank) :=
  (h.span (.inr s.isBlank_first)).imp_right And.right

theorem Near.skipRemark (h : Near s b c d) : (c.skipWhile isBlank).skipComment.Passed b ∨
    Near s b (c.skipWhile isBlank).skipComment (d.skipWhile isBlank).skipComment := by
  rcases h.skipBlanks with hpassed | hblanks
  · exact .inl ((Cursor.leadsTo_skipComment _).passed hpassed)
  · exact hblanks.skipComment

/-- At the start of the next line. -/
def Cursor.newLine (c : Cursor) : Cursor := { c with line := c.line + 1, column := 0 }

theorem Clear.newLine (h : Clear s b c d) : Clear s b c.newLine d.newLine := by
  cases h with
  | ahead x cs i l k hlast => exact .ahead x cs i (l + 1) 0 hlast
  | behind cs i j l k hi hj hij => exact .behind cs i j (l + 1) 0 hi hj hij

namespace Cursor

theorem lineBreak_of_return (hx : c.peek = some '\r') (hfeed : c.next.sees 0 '\n' = true) :
    c.lineBreak = (['\n'], c.next.next.newLine) := by
  obtain ⟨_ | ⟨y, _ | ⟨z, cs⟩⟩, i, l, k⟩ := c
  · cases hx
  · cases hfeed
  obtain rfl := Option.some.inj hx
  obtain rfl : z = '\n' := by simpa [sees, test, next] using hfeed
  rfl

theorem lineBreak_of_break (hx : c.peek = some x) (hbreak : isBreak x = true)
    (hreturn : x = '\r' → c.next.sees 0 '\n' = false) :
    c.lineBreak = ([if x == '\u2028' || x == '\u2029' then x else '\n'], c.next.newLine) := by
  obtain ⟨_ | ⟨y, cs⟩, i, l, k⟩ := c
  · cases hx
  obtain rfl := Option.some.inj hx
  unfold lineBreak
  split
  next cs' h =>
    obtain ⟨rfl, rfl⟩ := List.cons.inj h
    exact nomatch hreturn rfl
  next y' cs' _ h =>
    obtain ⟨rfl, rfl⟩ := List.cons.inj h
    dsimp only
    split <;> simp_all [newLine, next]
  next h => cases h

theorem lineBreak_of_none (h : c.test 0 isBreak = false) : c.lineBreak = ([], c) := by
  obtain ⟨_ | ⟨y, cs⟩, i, l, k⟩ := c
  · rfl
  have hy : isBreak y = false := by simpa [test] using h
  unfold lineBreak
  split
  next cs' h =>
    obtain ⟨rfl, rfl⟩ := List.cons.inj h
    cases hy
  next y' cs' _ h =>
    obtain ⟨rfl, rfl⟩ := List.cons.inj h
    dsimp only
    split
    next h => simp_all [isBreak]
    · simp [hy]
  · rfl

/-- Where the next line begins does not depend on the column. -/
theorem lineBreak_column {cs : List Char} {a l k k' : Nat} {x : Char} (hx : x ∈ cs.head?)
    (hbreak : isBreak x = true) : (Cursor.mk cs a l k).lineBreak = (Cursor.mk cs a l k').lineBreak := by
  cases cs with
  | nil => cases hx
  | cons y cs =>
    obtain rfl := Option.some.inj hx
    unfold lineBreak
    split
    next cs' h =>
      cases h
      rfl
    next y' cs' hne h =>
      cases h
      simp only [hbreak, ↓reduceIte]
    next h => cases h

theorem length_lineBreak (h : c.test 0 isBreak = true) :
    c.lineBreak.2.rest.length < c.rest.length := by
  obtain ⟨x, hx, hbreak⟩ := test_zero_iff.1 h
  have hlen := length_next hx
  by_cases hreturn : x = '\r' ∧ c.next.sees 0 '\n' = true
  · have hlen' := length_next (sees_zero_iff.1 hreturn.2)
    rw [lineBreak_of_return (hreturn.1 ▸ hx) hreturn.2]
    show c.next.next.rest.length < _
    omega
  · rw [lineBreak_of_break hx hbreak fun hr => Bool.eq_false_iff.2 fun h => hreturn ⟨hr, h⟩]
    show c.next.rest.length < _
    omega

end Cursor

theorem isBlank_of_isBreak (h : isBreak x = true) : isBlank x = false := by
  unfold isBreak at h
  unfold isBlank
  simp only [Bool.or_eq_true, beq_iff_eq] at h
  obtain (((rfl | rfl) | rfl) | rfl) | rfl := h <;> rfl

theorem Clear.lineBreak (h : Clear s b c d) :
    d.lineBreak.1 = c.lineBreak.1 ∧ Clear s b c.lineBreak.2 d.lineBreak.2 := by
  cases hbreak : c.test 0 isBreak with
  | false =>
    rw [Cursor.lineBreak_of_none hbreak, Cursor.lineBreak_of_none ((h.test_zero _).trans hbreak)]
    exact ⟨rfl, h⟩
  | true =>
    obtain ⟨x, hx, hxbreak⟩ := Cursor.test_zero_iff.1 hbreak
    have hnext := h.next_of_solid hx (isBlank_of_isBreak hxbreak)
    have hdx := h.peek_eq.trans hx
    by_cases hreturn : x = '\r' ∧ c.next.sees 0 '\n' = true
    · obtain ⟨rfl, hfeed⟩ := hreturn
      have hnext' := hnext.next_of_solid (Cursor.sees_zero_iff.1 hfeed) rfl
      rw [Cursor.lineBreak_of_return hx hfeed,
        Cursor.lineBreak_of_return hdx ((hnext.sees_zero _).trans hfeed)]
      exact ⟨rfl, hnext'.newLine⟩
    · have hfeed (hr : x = '\r') : c.next.sees 0 '\n' = false :=
        Bool.eq_false_iff.2 fun h => hreturn ⟨hr, h⟩
      rw [Cursor.lineBreak_of_break hx hxbreak hfeed,
        Cursor.lineBreak_of_break hdx hxbreak fun hr => (hnext.sees_zero _).trans (hfeed hr)]
      exact ⟨rfl, hnext.newLine⟩

theorem Near.lineBreak (h : Near s b c d) :
    d.lineBreak.1 = c.lineBreak.1 ∧ Near s b c.lineBreak.2 d.lineBreak.2 := by
  cases h with
  | clear h => exact h.lineBreak.imp_right .clear
  | slot i l k hi hk =>
    have hword : (Cursor.mk (s.word ++ s.rest) i l k).test 0 isBreak = false := rfl
    have hvalue : (Cursor.mk (s.value ++ s.rest) i l k).test 0 isBreak = false := s.isBreak_first
    rw [Cursor.lineBreak_of_none hword, Cursor.lineBreak_of_none hvalue]
    exact ⟨rfl, .slot i l k hi hk⟩

/-! ## Readers -/

/-- Results that say where reading goes on. -/
class Placed (α : Type) where
  place : α → Cursor
  moved : α → Cursor → α

instance : Placed Cursor := ⟨id, fun _ c => c⟩

instance {α β : Type} [Placed β] : Placed (α × β) :=
  ⟨fun r => Placed.place r.2, fun r c => (r.1, Placed.moved r.2 c)⟩

open Placed

@[simp, grind =]
theorem place_cursor (c : Cursor) : place c = c := rfl

@[simp, grind =]
theorem place_mk {α β : Type} [Placed β] (a : α) (r : β) : place (a, r) = place r := rfl

/-- What is read in the first text is read in the second as well, and goes on in the related place,
unless the word has been passed. -/
def Tracks (R : Nat → Cursor → Cursor → Prop) (b : Nat) {α : Type} [Placed α]
    (u v : Except Fault α) : Prop :=
  ∀ r, u = .ok r → (place r).Passed b ∨ ∃ d, v = .ok (moved r d) ∧ R b (place r) d

namespace Tracks
variable {R R' : Nat → Cursor → Cursor → Prop} {α β : Type} [Placed α] [Placed β]
  {u v : Except Fault α}

theorem ok {r r' : α} (h : R b (place r) d) (hr : r' = moved r d) : Tracks R b (.ok r) (.ok r') := by
  rintro _ ⟨⟩
  exact .inr ⟨d, hr ▸ rfl, h⟩

theorem error (e : Fault) (v : Except Fault α) : Tracks R b (.error e) v := fun _ h => nomatch h

theorem ite {u' v' : Except Fault α} {q : Prop} [Decidable q] (h : q → Tracks R b u v)
    (h' : ¬ q → Tracks R b u' v') : Tracks R b (if q then u else u') (if q then v else v') := by
  split
  next hq => exact h hq
  next hq => exact h' hq

theorem passed (h : ∀ r, u = .ok r → (place r).Passed b) : Tracks R b u v :=
  fun r hr => .inl (h r hr)

theorem near (h : Tracks (Clear s) b u v) : Tracks (Near s) b u v :=
  fun r hr => (h r hr).imp_right fun ⟨d, hd, hclear⟩ => ⟨d, hd, .clear hclear⟩

theorem bind {f f' : α → Except Fault β} (h : Tracks R b u v)
    (hmoves : ∀ r r', f r = .ok r' → (place r).LeadsTo (place r'))
    (hf : ∀ r d, u = .ok r → R b (place r) d → Tracks R' b (f r) (f' (moved r d))) :
    Tracks R' b (u >>= f) (v >>= f') := by
  intro r' hr'
  cases u with
  | error => cases hr'
  | ok r =>
    rcases h r rfl with hp | ⟨d, rfl, hnear⟩
    · exact .inl ((hmoves r r' hr').passed hp)
    · exact hf r d rfl hnear r' hr'

end Tracks

end TokenKeeper.Yaml
