import Mathlib.Logic.Basic
import TokenKeeper.Proofs.Slot.Token

/-!
# What one token adds

A step of the scanner only adds to the tokens: behind all of them, or where a key may have begun
(`Scanner.Extends`, `Scanner.fetch_cases`). Hence the tokens before all such places are final.
-/

namespace TokenKeeper.Yaml

/-- Tokens that neither end the text nor are plain scalars. -/
def Token.isQuiet : Token → Bool
  | .streamEnd | .scalar _ .plain => false
  | _ => true

namespace Scanner

variable {s s' s₁ : Scanner} {n m : Nat} {t : Token} {k : Candidate}
  {c c' : Cursor}

/-- No key can begin any more before the token number `n`. -/
def Settled (s : Scanner) (n : Nat) : Prop :=
  ∀ k, some k ∈ s.candidates → s.isStale k = true ∨ n ≤ k.token

/-- The outermost indentation is that outside all blocks, and there is a place for a key for each level
of brackets and one for the block around them. -/
structure Shaped (s : Scanner) : Prop where
  bottom : (s.indent :: s.indents).getLast? = some (-1)
  levels : s.candidates.length = s.flow + 1

/-- Keys can begin only where the text has been read. -/
structure Sound (s : Scanner) : Prop extends Shaped s where
  behind : ∀ k, some k ∈ s.candidates →
    k.line < s.place.line ∨ k.line = s.place.line ∧ k.column ≤ s.place.column

/-- A step moves on, and the tokens that are final stay. -/
structure Grows (s s' : Scanner) : Prop where
  leads : s.place.LeadsTo s'.place
  sound : s.Sound → s'.Sound
  settled : ∀ n ≤ s.tokens.size, s.Settled n → n ≤ s'.tokens.size ∧
    s'.tokens.toList.take n = s.tokens.toList.take n ∧ s'.Settled n

/-- A part of a step that adds neither a plain scalar nor the end of the text. -/
structure Extends (s s' : Scanner) : Prop extends Grows s s' where
  loud : ∀ t ∈ s'.tokens, t.isQuiet = false → t ∈ s.tokens
  finished : s'.finished = s.finished

theorem isStale_mono (h : s.place.LeadsTo s'.place) (hk : s.isStale k = true) :
    s'.isStale k = true := by
  have := h.index_le
  have := h.order
  simp only [isStale, Bool.or_eq_true, decide_eq_true_eq] at hk ⊢
  omega

theorem Grows.trans (h : Grows s s₁) (h' : Grows s₁ s') : Grows s s' where
  leads := h.leads.trans h'.leads
  sound := h'.sound ∘ h.sound
  settled n hn hs := by
    obtain ⟨hn₁, htake₁, hs₁⟩ := h.settled n hn hs
    obtain ⟨hn', htake', hs'⟩ := h'.settled n hn₁ hs₁
    exact ⟨hn', htake'.trans htake₁, hs'⟩

/-- Moving on, with tokens added behind all others, and with keys that can begin here or could
before. -/
theorem Grows.of_append (ts : List Token) (hleads : s.place.LeadsTo s'.place)
    (hshaped : s.Shaped → s'.Shaped)
    (hcandidates : ∀ k, some k ∈ s'.candidates → some k ∈ s.candidates ∨
      k.token = s.tokens.size ∧ k.line = s.place.line ∧ k.column = s.place.column)
    (htokens : s'.tokens.toList = s.tokens.toList ++ ts) : Grows s s' where
  leads := hleads
  sound h := by
    refine ⟨hshaped h.toShaped, fun k hk => ?_⟩
    have := hleads.order
    rcases hcandidates k hk with hk | ⟨-, hline, hcolumn⟩
    · have := h.behind k hk
      omega
    · omega
  settled n hn h := by
    have hsize := congrArg List.length htokens
    simp only [Array.length_toList, List.length_append] at hsize
    refine ⟨by omega, ?_, fun k hk => ?_⟩
    · rw [htokens, List.take_append_of_le_length (by simpa using hn)]
    · rcases hcandidates k hk with hk | ⟨htoken, -⟩
      · exact (h k hk).imp_left (isStale_mono hleads)
      · exact .inr (htoken ▸ hn)

namespace Extends

theorem refl (s : Scanner) : Extends s s :=
  ⟨⟨.refl _, id, fun _ hn h => ⟨hn, rfl, h⟩⟩, fun _ ht _ => ht, rfl⟩

theorem trans (h : Extends s s₁) (h' : Extends s₁ s') : Extends s s' :=
  ⟨h.toGrows.trans h'.toGrows, fun t ht hloud => h.loud t (h'.loud t ht hloud) hloud,
    h'.finished.trans h.finished⟩

theorem of_append (ts : List Token) (hleads : s.place.LeadsTo s'.place)
    (hshaped : s.Shaped → s'.Shaped)
    (hcandidates : ∀ k, some k ∈ s'.candidates → some k ∈ s.candidates ∨
      k.token = s.tokens.size ∧ k.line = s.place.line ∧ k.column = s.place.column)
    (htokens : s'.tokens.toList = s.tokens.toList ++ ts) (hquiet : ∀ t ∈ ts, t.isQuiet = true)
    (hfinished : s'.finished = s.finished) : Extends s s' where
  toGrows := .of_append ts hleads hshaped hcandidates htokens
  loud t ht hloud := by
    rw [← Array.mem_toList_iff, htokens, List.mem_append] at ht
    rcases ht with ht | ht
    · exact Array.mem_toList_iff.1 ht
    · exact nomatch hloud.symm.trans (hquiet t ht)
  finished := hfinished

end Extends

theorem toList_insertAt (s : Scanner) (n : Nat) (t : Token) : (s.insertAt n t).tokens.toList =
    s.tokens.toList.take n ++ t :: s.tokens.toList.drop n := by
  simp [insertAt, List.take_of_length_le]

theorem Extends.insertAt (s : Scanner) (hquiet : t.isQuiet = true)
    (hn : ∀ m ≤ s.tokens.size, s.Settled m → m ≤ n) : Extends s (s.insertAt n t) where
  leads := .refl _
  sound h := ⟨⟨h.bottom, h.levels⟩, h.behind⟩
  settled m hm h := by
    have hmn := hn m hm h
    have hsize := congrArg List.length (s.toList_insertAt n t)
    simp only [Array.length_toList, List.length_append, List.length_take, List.length_cons,
      List.length_drop] at hsize
    refine ⟨by omega, ?_, h⟩
    rw [toList_insertAt, List.take_append_of_le_length, List.take_take, Nat.min_eq_left hmn]
    rw [List.length_take, Array.length_toList]
    omega
  loud u hu hloud := by
    rw [← Array.mem_toList_iff, toList_insertAt, List.mem_append, List.mem_cons] at hu
    rw [← Array.mem_toList_iff]
    rcases hu with hu | rfl | hu
    · exact List.mem_of_mem_take hu
    · exact nomatch hloud.symm.trans hquiet
    · exact List.mem_of_mem_drop hu
  finished := rfl

theorem dropStale_frame (h : s.dropStale = .ok s') :
    s' = { s with candidates := s'.candidates } := by
  simp only [dropStale] at h
  split_ifs at h
  cases h
  rfl

theorem extends_dropStale (h : s.dropStale = .ok s') : Extends s s' := by
  simp only [dropStale] at h
  split_ifs at h
  cases h
  refine .of_append [] (.refl _) (fun h => ⟨h.bottom, by simpa using h.levels⟩)
    (fun k hk => .inl ?_) (by simp) (by simp) rfl
  obtain ⟨k', hk', hfilter⟩ := List.mem_map.1 hk
  obtain ⟨rfl, -⟩ := Option.filter_eq_some_iff.1 hfilter
  exact hk'

theorem extends_move (s : Scanner) (h : s.place.LeadsTo c) (b : Bool) :
    Extends s { s with place := c, keyAllowed := b } :=
  .of_append [] h (fun h => ⟨h.bottom, h.levels⟩) (fun _ h => .inl h) (by simp) (by simp) rfl

/-- Where the blanks and the comment of a line end. -/
def gapEnd (s : Scanner) : Cursor :=
  ((if s.place.index == 0 && s.place.sees 0 '\uFEFF' then s.place.next else s.place).skipWhile
    fun x => x == ' ' || ((s.flow != 0 || !s.keyAllowed) && x == '\t')).skipComment

/-- At the start of the line behind the gap. -/
def onNewLine (s : Scanner) : Scanner :=
  { s with place := s.gapEnd.lineBreak.2, keyAllowed := s.keyAllowed || s.flow == 0 }

theorem skipGap_succ (s : Scanner) (n : Nat) : s.skipGap (n + 1) =
    if s.gapEnd.test 0 isBreak then s.onNewLine.skipGap n
    else { s with place := s.gapEnd } := rfl

theorem leadsTo_gapEnd (s : Scanner) : s.place.LeadsTo s.gapEnd := by
  rw [gapEnd]
  grind

theorem extends_skipGap (s : Scanner) (n : Nat) : Extends s (s.skipGap n) := by
  induction n generalizing s with
  | zero => exact .refl s
  | succ n ih =>
    rw [skipGap_succ]
    split_ifs
    · exact (s.extends_move s.leadsTo_gapEnd.lineBreak _).trans (ih _)
    · exact s.extends_move s.leadsTo_gapEnd _

theorem skipGap_frame (s : Scanner) (n : Nat) : s.skipGap n =
    { s with place := (s.skipGap n).place, keyAllowed := (s.skipGap n).keyAllowed } := by
  induction n generalizing s with
  | zero => rfl
  | succ n ih =>
    rw [skipGap_succ]
    split_ifs
    · exact ih s.onNewLine
    · rfl

theorem extends_closeBlocks (s : Scanner) (column : Int) : Extends s (s.closeBlocks column) := by
  have hgo (indent : Int) (tokens : Array Token) (indents : List Int) :
      Extends { s with indent := indent, indents := indents, tokens := tokens }
        (closeBlocks.go s column indent tokens indents) := by
    induction indents generalizing indent tokens with
    | nil => exact .refl _
    | cons i is ih =>
      rw [closeBlocks.go]
      split_ifs
      · have hpush : Extends { s with indent := indent, indents := i :: is, tokens := tokens }
            { s with indent := i, indents := is, tokens := tokens.push .blockEnd } :=
          .of_append [.blockEnd] (.refl _)
            (fun h => ⟨List.getLast?_cons_cons.symm.trans h.bottom, h.levels⟩)
            (fun _ h => .inl h) (by simp) (by simp [Token.isQuiet]) rfl
        exact hpush.trans (ih i (tokens.push .blockEnd))
      · exact .refl _
  rw [closeBlocks]
  split_ifs
  · exact hgo s.indent s.tokens s.indents
  · exact .refl s

/-- Closing blocks concerns the indentation and the tokens only. -/
theorem closeBlocks_frame (s : Scanner) (column : Int) : s.closeBlocks column =
    { s with
      indent := (s.closeBlocks column).indent, indents := (s.closeBlocks column).indents
      tokens := (s.closeBlocks column).tokens } := by
  have hgo (indent : Int) (tokens : Array Token) (indents : List Int) :
      closeBlocks.go s column indent tokens indents =
        { s with
          indent := (closeBlocks.go s column indent tokens indents).indent
          indents := (closeBlocks.go s column indent tokens indents).indents
          tokens := (closeBlocks.go s column indent tokens indents).tokens } := by
    induction indents generalizing indent tokens with
    | nil => rfl
    | cons i is ih =>
      rw [closeBlocks.go]
      split_ifs
      · exact ih i (tokens.push .blockEnd)
      · rfl
  rw [closeBlocks]
  split_ifs
  · exact hgo s.indent s.tokens s.indents
  · rfl

/-- Closing blocks looks at the indentation and the brackets only. -/
theorem closeBlocks_with (s : Scanner) (c : Cursor) (b : Bool) (ks : List (Option Candidate))
    (column : Int) : { s with place := c, keyAllowed := b, candidates := ks }.closeBlocks column =
      { s.closeBlocks column with place := c, keyAllowed := b, candidates := ks } := by
  have hgo (indent : Int) (tokens : Array Token) (indents : List Int) :
      closeBlocks.go { s with place := c, keyAllowed := b, candidates := ks } column indent tokens
        indents = { closeBlocks.go s column indent tokens indents with
          place := c, keyAllowed := b, candidates := ks } := by
    induction indents generalizing indent tokens with
    | nil => rfl
    | cons i is ih =>
      rw [closeBlocks.go, closeBlocks.go]
      split_ifs
      · exact ih i (tokens.push .blockEnd)
      · rfl
  rw [closeBlocks, closeBlocks]
  dsimp only
  split_ifs
  · exact hgo s.indent s.tokens s.indents
  · rfl

/-- Where blocks have been closed, none is further in. -/
theorem indent_closeBlocks_le (h : s.Shaped) (hflow : s.flow = 0) (column : Nat) :
    (s.closeBlocks column).indent ≤ column := by
  have hgo (indent : Int) (tokens : Array Token) (indents : List Int)
      (hbottom : (indent :: indents).getLast? = some (-1)) :
      (closeBlocks.go s column indent tokens indents).indent ≤ column := by
    induction indents generalizing indent tokens with
    | nil =>
      obtain rfl : indent = -1 := by simpa using hbottom
      show (-1 : Int) ≤ column
      omega
    | cons i is ih =>
      rw [closeBlocks.go]
      split_ifs with hlt
      · exact ih i _ (List.getLast?_cons_cons.symm.trans hbottom)
      · exact Int.not_lt.1 hlt
  rw [closeBlocks, hflow, if_pos (beq_self_eq_true 0)]
  exact hgo _ _ _ h.bottom

/-- Unless the end of a block is the last token, none has been closed. -/
theorem closeBlocks_of_back {column : Int} (h : (s.closeBlocks column).tokens.back? = some t)
    (ht : t ≠ .blockEnd) :
    (s.closeBlocks column).tokens = s.tokens ∧ (s.closeBlocks column).indent = s.indent := by
  have hgo (indent : Int) (tokens : Array Token) (indents : List Int) :
      ((closeBlocks.go s column indent tokens indents).tokens = tokens ∧
        (closeBlocks.go s column indent tokens indents).indent = indent) ∨
      (closeBlocks.go s column indent tokens indents).tokens.back? = some .blockEnd := by
    induction indents generalizing indent tokens with
    | nil => exact .inl ⟨rfl, rfl⟩
    | cons i is ih =>
      rw [closeBlocks.go]
      split_ifs
      · rcases ih i (tokens.push .blockEnd) with ⟨htokens, -⟩ | hback
        · exact .inr (by rw [htokens, Array.back?_push])
        · exact .inr hback
      · exact .inl ⟨rfl, rfl⟩
  rw [closeBlocks] at h ⊢
  split_ifs at h ⊢
  · refine (hgo s.indent s.tokens s.indents).resolve_right fun hback => ht ?_
    exact Option.some.inj (h.symm.trans hback)
  · exact ⟨rfl, rfl⟩

/-- Closing blocks in two steps is closing them in one. -/
theorem closeBlocks_closeBlocks {a b : Int} (h : b ≤ a) (s : Scanner) :
    (s.closeBlocks a).closeBlocks b = s.closeBlocks b := by
  have hgo (indent : Int) (tokens : Array Token) (indents : List Int) (hflow : (s.flow == 0) = true) :
      (closeBlocks.go s a indent tokens indents).closeBlocks b =
        closeBlocks.go s b indent tokens indents := by
    have hsame (r : Scanner) (indent : Int) (tokens : Array Token) (indents : List Int) :
        closeBlocks.go { s with indent := r.indent, indents := r.indents, tokens := r.tokens } b
          indent tokens indents = closeBlocks.go s b indent tokens indents := by
      induction indents generalizing indent tokens with
      | nil => rfl
      | cons i is ih =>
        rw [closeBlocks.go, closeBlocks.go]
        split_ifs
        · exact ih i _
        · rfl
    induction indents generalizing indent tokens with
    | nil =>
      rw [closeBlocks.go, closeBlocks, if_pos hflow]
      rfl
    | cons i is ih =>
      rw [closeBlocks.go]
      split_ifs with hlt
      · rw [ih, closeBlocks.go, if_pos (by omega)]
      · rw [closeBlocks, if_pos hflow]
        exact hsame { s with indent := indent, indents := i :: is, tokens := tokens } _ _ _
  rw [closeBlocks.eq_1 s a, closeBlocks.eq_1 s b]
  split_ifs with hflow
  · exact hgo _ _ _ hflow
  · rw [closeBlocks, if_neg hflow]

theorem extends_dropCandidate (h : s.dropCandidate = .ok s') : Extends s s' := by
  unfold dropCandidate at h
  split at h
  next k ks hs =>
    split_ifs at h
    cases h
    refine .of_append [] (.refl _) (fun h => ⟨h.bottom, by rw [← h.levels, hs]; rfl⟩)
      (fun k hk => .inl ?_) (by simp) (by simp) rfl
    rw [hs]
    simpa using Or.inr hk
  · cases h
    exact .refl s

theorem extends_saveCandidate (h : s.saveCandidate = .ok s') : Extends s s' := by
  unfold saveCandidate at h
  split_ifs at h
  · obtain ⟨s₁, hdrop, h⟩ := bind_eq_ok_iff.1 h
    cases h
    refine (extends_dropCandidate hdrop).trans
      (.of_append [] (.refl _) (fun h => ⟨h.bottom, ?_⟩) (fun k hk => ?_) (by simp) (by simp) rfl)
    · have := h.levels
      simp only [List.length_cons, List.length_drop]
      omega
    rcases List.mem_cons.1 hk with hk | hk
    · cases hk
      exact .inr ⟨rfl, rfl, rfl⟩
    · exact .inl (List.mem_of_mem_drop hk)
  · cases h
    exact .refl s

theorem dropCandidate_frame (h : s.dropCandidate = .ok s') :
    s' = { s with candidates := s'.candidates } := by
  unfold dropCandidate at h
  split at h
  · split_ifs at h
    cases h
    rfl
  · cases h
    rfl

theorem saveCandidate_frame (h : s.saveCandidate = .ok s') :
    s' = { s with candidates := s'.candidates } := by
  unfold saveCandidate at h
  split_ifs at h
  · obtain ⟨s₁, hdrop, h⟩ := bind_eq_ok_iff.1 h
    cases h
    rw [dropCandidate_frame hdrop]
  · cases h
    rfl

theorem extends_take (s : Scanner) (n : Nat) (hquiet : t.isQuiet = true) : Extends s (s.take n t) :=
  .of_append [t] (s.place.leadsTo_skip n) (fun h => ⟨h.bottom, h.levels⟩) (fun _ h => .inl h)
    (by simp [take, push])
    (by simpa using hquiet) rfl

theorem openBlock_candidates (s : Scanner) (column n : Nat) (t : Token) :
    (s.openBlock column n t).candidates = s.candidates := by
  rw [openBlock]
  split_ifs <;> rfl

theorem openBlock_place (s : Scanner) (column n : Nat) (t : Token) :
    (s.openBlock column n t).place = s.place := by
  rw [openBlock]
  split_ifs <;> rfl

theorem extends_openBlock (s : Scanner) (column : Nat) (hquiet : t.isQuiet = true)
    (hn : ∀ m ≤ s.tokens.size, s.Settled m → m ≤ n) : Extends s (s.openBlock column n t) := by
  rw [openBlock]
  split_ifs
  · have hindent : Extends s { s with indents := s.indent :: s.indents, indent := column } :=
      .of_append [] (.refl _) (fun h => ⟨List.getLast?_cons_cons.trans h.bottom, h.levels⟩)
        (fun _ h => .inl h)
        (by simp) (by simp) rfl
    exact hindent.trans (.insertAt _ hquiet hn)
  · exact .refl s

/-! ## One token -/

/-- What comes next, read where it begins. -/
def takeNext (s : Scanner) : Except Fault Scanner :=
  let c := s.place
  let inFlow := s.flow != 0
  match c.peek with
  | none => s.takeEnd
  | some x =>
    if c.column == 0 && x == '%' then do
      let s ← s.outermost
      let (t, c) ← readDirective s.place
      return { s with place := c }.push t
    else if c.atDocumentMark then do
      let s ← s.outermost
      return s.take 3 (if x == '-' then .documentStart else .documentEnd)
    else if x == '[' then s.takeOpening .flowSequence
    else if x == '{' then s.takeOpening .flowMapping
    else if x == ']' then s.takeClosing .flowSequenceEnd
    else if x == '}' then s.takeClosing .flowMappingEnd
    else if x == ',' then s.takeFlowEntry
    else if x == '-' && c.gapAt 1 then s.takeBlockEntry
    else if x == '?' && (inFlow || c.gapAt 1) then s.takeKey
    else if x == ':' && (inFlow || c.gapAt 1) then s.takeValue
    else if x == '*' then
      s.takeNode fun c => (readAnchor c.next).map fun (n, c) => (.alias n, c)
    else if x == '&' then
      s.takeNode fun c => (readAnchor c.next).map fun (n, c) => (.anchor n, c)
    else if x == '!' then s.takeNode (readTag inFlow)
    else if x == '|' && !inFlow then s.takeBlockScalar true
    else if x == '>' && !inFlow then s.takeBlockScalar false
    else if x == '\'' then s.takeQuoted true
    else if x == '"' then s.takeQuoted false
    else if !(isBlank x || isIndicator x) || (x == '-' && !c.test 1 isBlank)
        || (!inFlow && (x == '?' || x == ':') && !c.gapAt 1) then s.takePlain
    else .error .character

theorem fetch_eq (s : Scanner) : s.fetch = (s.skipGap (s.place.rest.length + 1)).dropStale.bind
    fun s => (s.closeBlocks s.place.column).takeNext := rfl

theorem takeNext_of_blank {x : Char} (hx : s.place.peek = some x) (hblank : isBlank x = true) :
    s.takeNext = .error .character := by
  simp only [isBlank, Bool.or_eq_true, beq_iff_eq] at hblank
  have hmark : s.place.atDocumentMark = false := by
    simp only [Cursor.atDocumentMark, Cursor.sees, Cursor.test_zero_of_peek hx]
    obtain rfl | rfl := hblank <;> simp
  simp only [takeNext, hx, hmark]
  obtain rfl | rfl := hblank <;> simp [isBlank]

/-- What begins with no indicator is a plain scalar. -/
theorem takeNext_of_letter {x : Char} (hx : s.place.peek = some x) (hcolumn : s.place.column ≠ 0)
    (hblank : isBlank x = false) (hletter : isIndicator x = false) : s.takeNext = s.takePlain := by
  have hmark : s.place.atDocumentMark = false := by
    simp [Cursor.atDocumentMark, beq_false_of_ne hcolumn]
  simp only [isIndicator, List.contains_eq_mem, List.mem_cons, List.not_mem_nil, or_false,
    decide_eq_false_iff_not, not_or] at hletter
  have hplain : isIndicator x = false := by simp [isIndicator, hletter]
  simp [takeNext, hx, hmark, hletter, hblank, hplain]

/-- Outside brackets a dash, a question mark and a colon begin a plain scalar if no gap follows. -/
theorem takeNext_of_sign {x : Char} (hx : s.place.peek = some x) (hcolumn : s.place.column ≠ 0)
    (hsign : x = '-' ∨ x = '?' ∨ x = ':') (hgap : s.place.gapAt 1 = false) (hflow : s.flow = 0) :
    s.takeNext = s.takePlain := by
  have hmark : s.place.atDocumentMark = false := by
    simp [Cursor.atDocumentMark, beq_false_of_ne hcolumn]
  have hblank : s.place.test 1 isBlank = false := by
    simp only [Cursor.gapAt, Cursor.test, Bool.or_eq_false_iff] at hgap ⊢
    cases hrest : s.place.rest[1]? with
    | none => rfl
    | some y =>
      simp only [hrest, Option.any_some, Bool.or_eq_false_iff] at hgap ⊢
      exact hgap.2.1
  obtain rfl | rfl | rfl := hsign <;> simp [takeNext, hx, hmark, hgap, hflow, hblank]

theorem outermost_place (h : s.outermost = .ok s') : s'.place = s.place := by
  obtain ⟨s₁, hdrop, h⟩ := bind_eq_ok_iff.1 h
  cases h
  rw [dropCandidate_frame hdrop, closeBlocks_frame]

theorem extends_outermost (h : s.outermost = .ok s') : Extends s s' := by
  obtain ⟨s₁, hdrop, h⟩ := bind_eq_ok_iff.1 h
  cases h
  exact ((s.extends_closeBlocks _).trans (extends_dropCandidate hdrop)).trans
    (s₁.extends_move (.refl _) _)

/-- Adding a token that has been read. -/
theorem extends_push (s : Scanner) (h : s.place.LeadsTo c) (b : Bool) (hquiet : t.isQuiet = true) :
    Extends s ({ s with place := c, keyAllowed := b }.push t) :=
  .of_append [t] h (fun h => ⟨h.bottom, h.levels⟩) (fun _ h => .inl h) (by simp [push])
    (by simpa using hquiet) rfl

/-- How a token is added: quietly, and the colon of a value in one way only; or at the end of the
text; or as a plain scalar. -/
inductive Takes (s : Scanner) : Scanner → Prop
  | quiet {s' : Scanner} (h : Extends s s')
      (hvalue : s'.tokens.back? = some .value → s.takeValue = .ok s') : Takes s s'
  | atEnd {s₁ : Scanner} (h : Extends s s₁) (hrest : s.place.rest = []) :
      Takes s { s₁.push .streamEnd with finished := true }
  | plain {s₁ : Scanner} {text : List Char} {broken : Bool} {c : Cursor}
      (hsave : s.saveCandidate = .ok s₁)
      (hread : plainText (s.flow != 0) (s.indent + 1) (s.place.rest.length + 1) [] Gap.empty
        s.place = .ok (text, broken, c)) :
      Takes s ({ s₁ with keyAllowed := broken, place := c }.push (.scalar text .plain))

theorem Takes.of_push (h : Extends s s₁) (hleads : s₁.place.LeadsTo c) (b : Bool)
    (hquiet : t.isQuiet = true) (ht : t ≠ .value) :
    Takes s ({ s₁ with place := c, keyAllowed := b }.push t) :=
  .quiet (h.trans (s₁.extends_push hleads b hquiet)) fun hback => by
    simp only [push, Array.back?_push, Option.some_inj] at hback
    exact absurd hback ht

theorem Takes.of_take (h : Extends s s₁) (n : Nat) (b : Bool) (hquiet : t.isQuiet = true)
    (ht : t ≠ .value) : Takes s ({ s₁ with keyAllowed := b }.take n t) :=
  .of_push h (s₁.place.leadsTo_skip n) b hquiet ht

theorem takes_node {read : Cursor → Except Fault (Token × Cursor)} (h : s.takeNode read = .ok s')
    (hread : ∀ t c, read s.place = .ok (t, c) →
      s.place.LeadsTo c ∧ t.isQuiet = true ∧ t ≠ .value) : Takes s s' := by
  obtain ⟨s₁, hsave, h⟩ := bind_eq_ok_iff.1 h
  obtain ⟨⟨t, c⟩, ht, h⟩ := bind_eq_ok_iff.1 h
  cases h
  have hplace : s₁.place = s.place := by rw [saveCandidate_frame hsave]
  obtain ⟨hleads, hquiet, hvalue⟩ := hread t c (hplace ▸ ht)
  exact .of_push (extends_saveCandidate hsave) (hplace ▸ hleads) false hquiet hvalue

theorem takes_opening (h : s.takeOpening t = .ok s') (hquiet : t.isQuiet = true)
    (ht : t ≠ .value) : Takes s s' := by
  obtain ⟨s₁, hsave, h⟩ := bind_eq_ok_iff.1 h
  cases h
  have hopened : Extends s { s₁ with flow := s₁.flow + 1, candidates := none :: s₁.candidates } := by
    refine (extends_saveCandidate hsave).trans ?_
    exact .of_append [] (.refl _) (fun h => ⟨h.bottom, by simp [h.levels]⟩)
      (fun k hk => .inl (by simpa using hk)) (by simp) (by simp) rfl
  exact .of_take hopened 1 true hquiet ht

theorem takes_closing (h : s.takeClosing t = .ok s') (hquiet : t.isQuiet = true)
    (ht : t ≠ .value) : Takes s s' := by
  obtain ⟨s₁, hdrop, h⟩ := bind_eq_ok_iff.1 h
  cases h
  refine .of_take ((extends_dropCandidate hdrop).trans ?_) 1 false hquiet ht
  split_ifs with hflow
  · exact .refl _
  · refine .of_append [] (.refl _) (fun h => ⟨h.bottom, ?_⟩)
      (fun k hk => .inl (List.mem_of_mem_drop hk)) (by simp)
      (by simp) rfl
    have := h.levels
    simp only [beq_iff_eq] at hflow
    simp only [List.length_drop]
    omega

theorem takes_flowEntry (h : s.takeFlowEntry = .ok s') : Takes s s' := by
  obtain ⟨s₁, hdrop, h⟩ := bind_eq_ok_iff.1 h
  cases h
  exact .of_take (extends_dropCandidate hdrop) 1 true rfl nofun

theorem takes_blockEntry (h : s.takeBlockEntry = .ok s') : Takes s s' := by
  unfold takeBlockEntry at h
  obtain ⟨-, h⟩ := guard_eq_ok_iff.1 h
  obtain ⟨s₁, hdrop, h⟩ := bind_eq_ok_iff.1 h
  cases h
  exact .of_take ((extends_openBlock s _ rfl fun _ hm _ => hm).trans (extends_dropCandidate hdrop))
    1 true rfl nofun

theorem takes_key (h : s.takeKey = .ok s') : Takes s s' := by
  unfold takeKey at h
  obtain ⟨-, h⟩ := guard_eq_ok_iff.1 h
  obtain ⟨s₁, hdrop, h⟩ := bind_eq_ok_iff.1 h
  cases h
  exact .of_take ((extends_openBlock s _ rfl fun _ hm _ => hm).trans (extends_dropCandidate hdrop))
    1 _ rfl nofun

theorem extends_takeValue (h : s.takeValue = .ok s') (hfresh : ∀ k, some k ∈ s.candidates →
    s.isStale k = false) : Extends s s' := by
  unfold takeValue at h
  split at h
  next k ks hs =>
    cases h
    have hsettled (m : Nat) (hm : s.Settled m) : m ≤ k.token := by
      have hk : some k ∈ s.candidates := hs ▸ List.mem_cons_self
      exact (hm k hk).resolve_left (by simp [hfresh k hk])
    have hinsert : Extends s (s.insertAt k.token .key) := .insertAt s rfl fun m _ => hsettled m
    have hopen := extends_openBlock (s.insertAt k.token .key) k.column (t := .blockMapping)
      (n := k.token) rfl fun m _ => hsettled m
    refine ((hinsert.trans hopen).trans ?_).trans (extends_take _ 1 rfl)
    refine .of_append [] (.refl _) (fun h => ⟨h.bottom, ?_⟩) (fun k' hk' => .inl ?_) (by simp)
      (by simp) rfl
    · rw [← h.levels, openBlock_candidates]
      show (none :: ks).length = s.candidates.length
      rw [hs]
      rfl
    rw [openBlock_candidates]
    exact hs ▸ List.mem_cons_of_mem _ (by simpa using hk')
  · obtain ⟨-, h⟩ := guard_eq_ok_iff.1 h
    cases h
    have hopen := extends_openBlock s s.place.column (t := .blockMapping) rfl fun _ hm _ => hm
    exact (hopen.trans (extends_move _ (.refl _) _)).trans (extends_take _ 1 rfl)

theorem takes_blockScalar {literal : Bool} (h : s.takeBlockScalar literal = .ok s') :
    Takes s s' := by
  obtain ⟨s₁, hdrop, h⟩ := bind_eq_ok_iff.1 h
  obtain ⟨⟨text, c⟩, hread, h⟩ := bind_eq_ok_iff.1 h
  cases h
  exact .of_push (extends_dropCandidate hdrop) (blockText_leadsTo hread).of_next true
    (by cases literal <;> rfl) (by cases literal <;> nofun)

theorem takes_plain (h : s.takePlain = .ok s') : Takes s s' := by
  obtain ⟨s₁, hsave, h⟩ := bind_eq_ok_iff.1 h
  obtain ⟨⟨text, broken, c⟩, hread, h⟩ := bind_eq_ok_iff.1 h
  cases h
  refine .plain hsave ?_
  have hframe := saveCandidate_frame hsave
  rw [hframe] at hread
  exact hread

theorem quiet_of_readTag {inFlow : Bool} (h : readTag inFlow c = .ok (t, c')) :
    t.isQuiet = true ∧ t ≠ .value := by
  simp only [readTag, bind, Except.bind, pure, Except.pure, throw, throwThe,
    MonadExceptOf.throw] at h
  grind [Token.isQuiet]

theorem quiet_of_readDirective (h : readDirective c = .ok (t, c')) :
    t.isQuiet = true ∧ t ≠ .value := by
  simp only [readDirective, bind, Except.bind, pure, Except.pure, throw, throwThe,
    MonadExceptOf.throw] at h
  grind [Token.isQuiet]

theorem takes_of_next (h : s.takeNext = .ok s') (hfresh : ∀ k, some k ∈ s.candidates →
    s.isStale k = false) : Takes s s' := by
  unfold takeNext at h
  dsimp only at h
  split at h
  next hx =>
    obtain ⟨s₁, hout, h⟩ := bind_eq_ok_iff.1 h
    cases h
    exact .atEnd (extends_outermost hout) (List.head?_eq_none_iff.1 hx)
  next x hx =>
    -- one case for each way in which a token begins, in the order in which they are tried
    obtain ⟨-, h⟩ | ⟨-, h⟩ := ite_eq_iff.1 h
    · obtain ⟨s₁, hout, h⟩ := bind_eq_ok_iff.1 h
      obtain ⟨⟨t, c⟩, hread, h⟩ := bind_eq_ok_iff.1 h
      cases h
      obtain ⟨hquiet, ht⟩ := quiet_of_readDirective hread
      exact .of_push (extends_outermost hout) (readDirective_leadsTo hread) _ hquiet ht
    obtain ⟨-, h⟩ | ⟨-, h⟩ := ite_eq_iff.1 h
    · obtain ⟨s₁, hout, h⟩ := bind_eq_ok_iff.1 h
      cases h
      exact .of_take (extends_outermost hout) 3 _ (by split_ifs <;> rfl) (by split_ifs <;> nofun)
    obtain ⟨-, h⟩ | ⟨-, h⟩ := ite_eq_iff.1 h
    · exact takes_opening h rfl nofun
    obtain ⟨-, h⟩ | ⟨-, h⟩ := ite_eq_iff.1 h
    · exact takes_opening h rfl nofun
    obtain ⟨-, h⟩ | ⟨-, h⟩ := ite_eq_iff.1 h
    · exact takes_closing h rfl nofun
    obtain ⟨-, h⟩ | ⟨-, h⟩ := ite_eq_iff.1 h
    · exact takes_closing h rfl nofun
    obtain ⟨-, h⟩ | ⟨-, h⟩ := ite_eq_iff.1 h
    · exact takes_flowEntry h
    obtain ⟨-, h⟩ | ⟨-, h⟩ := ite_eq_iff.1 h
    · exact takes_blockEntry h
    obtain ⟨-, h⟩ | ⟨-, h⟩ := ite_eq_iff.1 h
    · exact takes_key h
    obtain ⟨-, h⟩ | ⟨-, h⟩ := ite_eq_iff.1 h
    · exact .quiet (extends_takeValue h hfresh) fun _ => h
    obtain ⟨-, h⟩ | ⟨-, h⟩ := ite_eq_iff.1 h
    · exact takes_node h fun t c h => by
        obtain ⟨⟨name, c⟩, hread, h⟩ := map_eq_ok_iff.1 h
        cases h
        exact ⟨by grind, rfl, nofun⟩
    obtain ⟨-, h⟩ | ⟨-, h⟩ := ite_eq_iff.1 h
    · exact takes_node h fun t c h => by
        obtain ⟨⟨name, c⟩, hread, h⟩ := map_eq_ok_iff.1 h
        cases h
        exact ⟨by grind, rfl, nofun⟩
    obtain ⟨-, h⟩ | ⟨-, h⟩ := ite_eq_iff.1 h
    · exact takes_node h fun t c h => ⟨readTag_leadsTo h, quiet_of_readTag h⟩
    obtain ⟨-, h⟩ | ⟨-, h⟩ := ite_eq_iff.1 h
    · exact takes_blockScalar h
    obtain ⟨-, h⟩ | ⟨-, h⟩ := ite_eq_iff.1 h
    · exact takes_blockScalar h
    obtain ⟨-, h⟩ | ⟨-, h⟩ := ite_eq_iff.1 h
    · exact takes_node h fun t c h => by
        obtain ⟨⟨text, c⟩, hread, h⟩ := bind_eq_ok_iff.1 h
        cases h
        exact ⟨by grind, rfl, nofun⟩
    obtain ⟨-, h⟩ | ⟨-, h⟩ := ite_eq_iff.1 h
    · exact takes_node h fun t c h => by
        obtain ⟨⟨text, c⟩, hread, h⟩ := bind_eq_ok_iff.1 h
        cases h
        exact ⟨by grind, rfl, nofun⟩
    obtain ⟨-, h⟩ | ⟨-, h⟩ := ite_eq_iff.1 h
    · exact takes_plain h
    · cases h

theorem Takes.grows (h : Takes s s') : Grows s s' := by
  cases h with
  | quiet h => exact h.toGrows
  | @atEnd s₁ h =>
    exact h.toGrows.trans (.of_append [.streamEnd] (.refl _) (fun h => ⟨h.bottom, h.levels⟩)
      (fun _ h => .inl h)
      (by simp [push]))
  | @plain s₁ text broken c hsave hread =>
    have hplace : s₁.place = s.place := by rw [saveCandidate_frame hsave]
    exact (extends_saveCandidate hsave).toGrows.trans (.of_append [.scalar text .plain]
      (hplace ▸ plainText_leadsTo hread) (fun h => ⟨h.bottom, h.levels⟩) (fun _ h => .inl h)
      (by simp [push]))

/-- Where a plain scalar or the end of the text comes from. -/
theorem Takes.loud (h : Takes s s') (ht : t ∈ s'.tokens) (hloud : t.isQuiet = false) :
    t ∈ s.tokens ∨ (t = .streamEnd ∧ s'.place.rest = []) ∨
      ∃ text broken, t = .scalar text .plain ∧
        plainText (s.flow != 0) (s.indent + 1) (s.place.rest.length + 1) [] Gap.empty s.place =
          .ok (text, broken, s'.place) := by
  cases h with
  | quiet h => exact .inl (h.loud t ht hloud)
  | @atEnd s₁ h hrest =>
    rcases Array.mem_push.1 ht with ht | rfl
    · exact .inl (h.loud t ht hloud)
    · have hsuffix := h.leads.suffix
      rw [hrest, List.suffix_nil] at hsuffix
      exact .inr (.inl ⟨rfl, hsuffix⟩)
  | @plain s₁ text broken c hsave hread =>
    rcases Array.mem_push.1 ht with ht | rfl
    · exact .inl ((extends_saveCandidate hsave).loud t ht hloud)
    · exact .inr (.inr ⟨text, broken, rfl, hread⟩)

theorem isStale_of_dropStale (h : s.dropStale = .ok s') (hk : some k ∈ s'.candidates) :
    s'.isStale k = false := by
  simp only [dropStale] at h
  split_ifs at h
  cases h
  obtain ⟨k', -, hfilter⟩ := List.mem_map.1 hk
  obtain ⟨rfl, hfresh⟩ := Option.filter_eq_some_iff.1 hfilter
  show s.isStale k = false
  simpa using hfresh

/-- The state at the next token: behind the gap, and where blocks have ended. -/
def atNext (s : Scanner) : Except Fault Scanner :=
  (s.skipGap (s.place.rest.length + 1)).dropStale.map fun s => s.closeBlocks s.place.column

theorem fetch_eq_atNext (s : Scanner) : s.fetch = s.atNext.bind takeNext := by
  rw [fetch_eq, atNext]
  cases (s.skipGap (s.place.rest.length + 1)).dropStale <;> rfl

/-- What is known at the next token. -/
structure Reaches (s s₁ : Scanner) : Prop extends Extends s s₁ where
  flow : s₁.flow = s.flow
  place : s₁.place = (s.skipGap (s.place.rest.length + 1)).place
  keyAllowed : s₁.keyAllowed = (s.skipGap (s.place.rest.length + 1)).keyAllowed
  fresh : ∀ k, some k ∈ s₁.candidates → s₁.isStale k = false
  indent : s.Sound → s.flow = 0 → s₁.indent ≤ s₁.place.column
  back : ∀ t, s₁.tokens.back? = some t → t ≠ .blockEnd →
    s₁.tokens = s.tokens ∧ s₁.indent = s.indent

theorem reaches_of_atNext (h : s.atNext = .ok s₁) : Reaches s s₁ := by
  obtain ⟨s₀, hstale, rfl⟩ := map_eq_ok_iff.1 h
  have hgap := s.skipGap_frame (s.place.rest.length + 1)
  have hextends := (s.extends_skipGap _).trans (extends_dropStale hstale)
  have hdrop := dropStale_frame hstale
  have hclose := closeBlocks_frame s₀ s₀.place.column
  have hplace : s₀.place = (s.skipGap (s.place.rest.length + 1)).place := by rw [hdrop]
  have hflow : s₀.flow = s.flow := by rw [hdrop, hgap]
  refine ⟨hextends.trans (s₀.extends_closeBlocks _), ?_, ?_, ?_, fun k hk => ?_, fun hsound hflow' => ?_,
    fun t ht hne => ?_⟩
  · rw [hclose]
    exact hflow
  · rw [hclose]
    exact hplace
  · rw [hclose, hdrop]
  · rw [hclose] at hk ⊢
    show s₀.isStale k = false
    exact isStale_of_dropStale hstale hk
  · have hle := indent_closeBlocks_le (hextends.sound hsound).toShaped (hflow.trans hflow')
      s₀.place.column
    rw [closeBlocks_frame]
    exact hle
  · obtain ⟨htokens, hindent⟩ := closeBlocks_of_back ht hne
    rw [htokens, hindent, hdrop, hgap]
    exact ⟨rfl, rfl⟩

/-- A step first moves to the next token. -/
theorem takes_of_fetch (h : s.fetch = .ok s') :
    ∃ s₁, s.atNext = .ok s₁ ∧ Reaches s s₁ ∧ Takes s₁ s' := by
  rw [fetch_eq_atNext] at h
  obtain ⟨s₁, hnext, h⟩ := bind_eq_ok_iff.1 h
  have hreaches := reaches_of_atNext hnext
  exact ⟨s₁, hnext, hreaches, takes_of_next h hreaches.fresh⟩

theorem grows_of_fetch (h : s.fetch = .ok s') : Grows s s' := by
  obtain ⟨s₁, -, hreaches, htakes⟩ := takes_of_fetch h
  exact hreaches.toGrows.trans htakes.grows

/-! ## Places given up early -/

theorem skipGap_candidates (s : Scanner) (ks : List (Option Candidate)) (n : Nat) :
    { s with candidates := ks }.skipGap n = { s.skipGap n with candidates := ks } := by
  induction n generalizing s with
  | zero => rfl
  | succ n ih =>
    rw [skipGap_succ, skipGap_succ]
    have hend : { s with candidates := ks }.gapEnd = s.gapEnd := rfl
    rw [hend]
    split_ifs
    · exact ih s.onNewLine
    · rfl

/-- Giving up places early changes nothing. -/
theorem fetch_of_dropStale (h : s.dropStale = .ok s₁) : s₁.fetch = s.fetch := by
  simp only [dropStale] at h
  split_ifs at h with hrequired
  cases h
  have hgap := skipGap_candidates s s.candidates (s.place.rest.length + 1)
  have hleads := (s.extends_skipGap (s.place.rest.length + 1)).leads
  rw [fetch_eq, fetch_eq]
  show (skipGap { s with candidates := _ } _).dropStale.bind _ = _
  rw [skipGap_candidates]
  change s.skipGap _ = _ at hgap
  generalize s.skipGap (s.place.rest.length + 1) = r at hgap hleads
  have hcandidates : r.candidates = s.candidates := by rw [hgap]
  have hmono (k : Candidate) : s.isStale k = true → r.isStale k = true := isStale_mono hleads
  congr 1
  have hrequired' : ∀ o ∈ s.candidates,
      (o.filter fun k => !s.isStale k).any (fun k => r.isStale k && k.required) =
        o.any fun k => r.isStale k && k.required := by
    intro o ho
    cases o with
    | none => rfl
    | some k =>
      cases hk : s.isStale k with
      | false => simp [Option.filter, hk]
      | true =>
        have : k.required = false := by
          simp only [List.any_eq_true, not_exists, not_and] at hrequired
          simpa [hk] using hrequired (some k) ho
        simp [Option.filter, hk, this]
  have hfilter (o : Option Candidate) :
      ((o.filter fun k => !s.isStale k).filter fun k => !r.isStale k) =
        o.filter fun k => !r.isStale k := by
    cases o with
    | none => rfl
    | some k =>
      cases hk : s.isStale k with
      | false => simp [Option.filter, hk]
      | true => simp [Option.filter, hk, hmono k hk]
  have hstale (k : Candidate) (ks : List (Option Candidate)) :
    { r with candidates := ks }.isStale k = r.isStale k := rfl
  simp only [dropStale, hstale, hcandidates, List.any_map, List.map_map, Function.comp_def, hfilter]
  have hany : (s.candidates.any fun o => (o.filter fun k => !s.isStale k).any
      fun k => r.isStale k && k.required) = s.candidates.any fun o => o.any
        fun k => r.isStale k && k.required := by
    rw [Bool.eq_iff_iff, List.any_eq_true, List.any_eq_true]
    exact exists_congr fun o => and_congr_right fun ho => by rw [hrequired' o ho]
  rw [hany]

end Scanner

end TokenKeeper.Yaml
