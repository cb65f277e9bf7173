import Mathlib.Tactic.SplitIfs
import TokenKeeper.Yaml.Scalar
import TokenKeeper.Proofs.Outcome
import TokenKeeper.Proofs.Slot.Cursor

/-!
# Scalars before and behind the word

Whatever reads the text of a scalar reads the same from places that correspond, as long as it does not
pass the word. From the place of the word itself blanks, comments and line breaks are not there in
either text, and all else passes the word.
-/

namespace TokenKeeper.Yaml

variable {s : Slot} {b n m : Nat} {c c' d : Cursor} {x : Char} {i : Int} {g g' : Gap}
  {inFlow single flag : Bool} {text text' : List Char}

@[grind →]
theorem Gap.read_leadsTo (h : Gap.read i n g c = .ok (g', c')) : c.LeadsTo c' := by
  fun_induction Gap.read i n g c <;> grind

@[grind →]
theorem plainWord_leadsTo (h : plainWord inFlow n c = .ok (text, c')) : c.LeadsTo c' := by
  induction n generalizing c text with
  | zero => simp only [plainWord] at h; grind
  | succ n ih =>
    simp only [plainWord, bind, Except.bind, pure, Except.pure] at h
    grind

@[grind →]
theorem plainText_leadsTo (h : plainText inFlow i n text g c = .ok (text', flag, c')) :
    c.LeadsTo c' := by
  induction n generalizing c text g with
  | zero => simp only [plainText] at h; grind
  | succ n ih =>
    simp only [plainText, bind, Except.bind, pure, Except.pure] at h
    grind

@[grind →]
theorem readEscape_leadsTo (h : readEscape c = .ok (x, c')) : c.LeadsTo c' := by
  simp only [readEscape] at h
  grind

@[grind →]
theorem quotedWord_leadsTo (h : quotedWord single n c = .ok (text, flag, c')) : c.LeadsTo c' := by
  induction n generalizing c text with
  | zero => simp only [quotedWord] at h; grind
  | succ n ih =>
    simp only [quotedWord, bind, Except.bind, pure, Except.pure] at h
    grind

@[grind →]
theorem quotedText_leadsTo (h : quotedText single n text c = .ok (text', c')) : c.LeadsTo c' := by
  induction n generalizing c text with
  | zero => simp only [quotedText] at h; grind
  | succ n ih =>
    simp only [quotedText, bind, Except.bind, pure, Except.pure] at h
    grind

/-- The sign for the line breaks at the end of a block scalar. -/
def chompingSign? (c : Cursor) : Option (Chomping × Cursor) :=
  if c.sees 0 '+' then some (.keep, c.next)
  else if c.sees 0 '-' then some (.strip, c.next)
  else none

/-- The indentation that is given for a block scalar, `0` if none is. -/
def blockWidth (c : Cursor) : Except Fault (Nat × Cursor) :=
  match c.peek with
  | some x =>
    if x == '0' then .error .scalar
    else if x.isDigit then .ok (x.toNat - 48, c.next)
    else .ok (0, c)
  | none => .ok (0, c)

theorem blockHeader_eq (c : Cursor) : blockHeader c =
    match chompingSign? c with
    | some (chomping, c) => do
      let (increment, c) ← blockWidth c
      return (chomping, increment, c)
    | none => do
      let (increment, c) ← blockWidth c
      match if increment == 0 then none else chompingSign? c with
      | some (chomping, c) => return (chomping, increment, c)
      | none => return (.clip, increment, c) := rfl

@[grind →]
theorem chompingSign?_leadsTo {chomping : Chomping} (h : chompingSign? c = some (chomping, c')) :
    c.LeadsTo c' := by
  grind [chompingSign?]

@[grind →]
theorem blockWidth_leadsTo {k : Nat} (h : blockWidth c = .ok (k, c')) : c.LeadsTo c' := by
  grind [blockWidth]

@[grind →]
theorem blockHeader_leadsTo {chomping : Chomping} {k : Nat} (h : blockHeader c = .ok (chomping, k, c')) :
    c.LeadsTo c' := by
  simp only [blockHeader_eq, bind, Except.bind, pure, Except.pure] at h
  grind

@[grind →]
theorem blockBreaks_leadsTo {indent widest widest' : Nat}
    (h : blockBreaks indent n text widest c = .ok (text', widest', c')) : c.LeadsTo c' := by
  induction n generalizing c text widest with
  | zero => simp only [blockBreaks] at h; grind
  | succ n ih =>
    simp only [blockBreaks] at h
    grind

@[grind →]
theorem blockLines_leadsTo {indent : Nat} {chomping : Chomping} {last breaks : List Char}
    {blankLine : Bool}
    (h : blockLines single chomping indent n text last breaks blankLine c = .ok (text', c')) :
    c.LeadsTo c' := by
  induction n generalizing c text last breaks blankLine with
  | zero => simp only [blockLines] at h; grind
  | succ n ih =>
    simp only [blockLines, bind, Except.bind] at h
    grind

@[grind →]
theorem blockText_leadsTo (h : blockText single i c = .ok (text, c')) : c.LeadsTo c' := by
  obtain ⟨⟨chomping, increment, c1⟩, hheader, h⟩ := bind_eq_ok_iff.1 h
  obtain ⟨-, h⟩ := guard_eq_ok_iff.1 h
  obtain ⟨⟨breaks, widest, c2⟩, hbreaks, hlines⟩ := bind_eq_ok_iff.1 h
  grind

/-! ## Plain scalars -/

theorem Near.sees_hash (h : Near s b c d) : d.sees 0 '#' = c.sees 0 '#' :=
  h.test_zero rfl (by simp [s.first_ne])

theorem Gap.read_tracks (h : Near s b c d) (hn : c.rest.length < n) (hm : d.rest.length < m) :
    Tracks (Near s) b (Gap.read i n g c) (Gap.read i m g d) := by
  induction n generalizing m g c d with
  | zero => omega
  | succ n ih =>
    obtain ⟨m, rfl⟩ : ∃ k, m = k + 1 := ⟨m - 1, by omega⟩
    rw [Gap.read, Gap.read]
    cases h with
    | slot l j k hj hk =>
      have hvalue : (Cursor.mk (s.value ++ s.rest) l j k).peek = some s.first := rfl
      simp only [hvalue, s.isBlank_first, s.isBreak_first, Bool.false_eq_true, ↓reduceIte]
      exact .ok (.slot l j k hj hk) rfl
    | clear h =>
      rw [h.peek_eq, h.column_eq]
      split
      next x hx =>
        have hlen := Cursor.length_next hx
        have hlen' := Cursor.length_next (h.peek_eq.trans hx)
        have hnext (g : Gap) := ih (g := g) (h.next hx) (m := m) (by omega) (by omega)
        cases hblank : isBlank x with
        | true =>
          simp only [↓reduceIte]
          split_ifs
          · exact .error _ _
          · exact hnext _
          · exact hnext _
        | false =>
          cases hbreak : isBreak x with
          | true =>
            have htest := Cursor.test_zero_iff.2 ⟨x, hx, hbreak⟩
            have hlen := Cursor.length_lineBreak htest
            have hlen' := Cursor.length_lineBreak ((h.test_zero _).trans htest)
            obtain ⟨hfst, hsnd⟩ := h.lineBreak
            simp only [↓reduceIte, Bool.false_eq_true, hfst]
            split_ifs
            · exact ih (.clear hsnd) (by omega) (by omega)
            · exact ih (.clear hsnd) (by omega) (by omega)
          | false => exact .ok (.clear h) rfl
      next => exact .ok (.clear h) rfl

theorem Gap.read_length (h : Gap.read i (n + 1) g c = .ok (g', c'))
    (hgap : c.gapAt 0 = true ∧ c.endsAt 0 = false) : c'.rest.length < c.rest.length := by
  have hsign : c.test 0 (fun x => isBlank x || isBreak x) = true := by
    simpa [Cursor.gapAt, hgap.2] using hgap.1
  obtain ⟨x, hx, hxsign⟩ := Cursor.test_zero_iff.1 hsign
  have hlen := Cursor.length_next hx
  rw [Gap.read, hx] at h
  cases hblank : isBlank x with
  | true =>
    have hnext : c.next.LeadsTo c' := by grind
    have := hnext.length_le
    omega
  | false =>
    have hbreak : isBreak x = true := by simpa [hblank] using hxsign
    have hline := Cursor.length_lineBreak (Cursor.test_zero_iff.2 ⟨x, hx, hbreak⟩)
    have hnext : c.lineBreak.2.LeadsTo c' := by grind
    have := hnext.length_le
    omega

/-- Whoever reads a word of a plain scalar at the word passes it. -/
theorem plainWord_passed {l j k : Nat}
    (h : plainWord inFlow (n + 1) ⟨s.word ++ s.rest, l, j, k⟩ = .ok (text, c')) :
    c'.Passed s.size := by
  have hpeek : (Cursor.mk (s.word ++ s.rest) l j k).peek = some '$' := rfl
  have hsigns : (isBlank '$' || isBreak '$') = false := rfl
  simp only [plainWord, hpeek, hsigns, bind, Except.bind, pure, Except.pure] at h
  exact Cursor.LeadsTo.passed (by grind) (Near.passed_next l j k)

theorem plainWord_tracks (h : Near s b c d) (hn : c.rest.length < n) (hm : d.rest.length < m) :
    Tracks (Clear s) b (plainWord inFlow n c) (plainWord inFlow m d) := by
  induction n generalizing m c d with
  | zero => omega
  | succ n ih =>
    obtain ⟨m, rfl⟩ : ∃ k, m = k + 1 := ⟨m - 1, by omega⟩
    cases h with
    | slot i l k hi hk =>
      exact .passed fun ⟨word, c'⟩ hread => plainWord_passed hread
    | clear h =>
      rw [plainWord, plainWord, h.peek_eq]
      split
      next => exact .ok h rfl
      next x hx =>
        have hlen := Cursor.length_next hx
        have hlen' := Cursor.length_next (h.peek_eq.trans hx)
        dsimp only
        cases hblank : isBlank x with
        | true => exact .ok h rfl
        | false =>
          rw [h.test_one hx hblank, h.gapAt_one hx hblank]
          split_ifs
          · exact .ok h rfl
          · exact .error _ _
          · exact .ok h rfl
          · exact .bind (ih (h.next hx) (by omega) (by omega)) (fun _ _ h => by cases h; exact .refl _)
              fun _ _ _ hclear => .ok hclear rfl

theorem plainText_tracks (h : Near s b c d) (hn : c.rest.length < n) (hm : d.rest.length < m) :
    Tracks (Near s) b (plainText inFlow i n text g c) (plainText inFlow i m text g d) := by
  induction n generalizing m text g c d with
  | zero => omega
  | succ n ih =>
    obtain ⟨m, rfl⟩ : ∃ k, m = k + 1 := ⟨m - 1, by omega⟩
    rw [plainText, plainText, h.atDocumentMark, h.sees_hash]
    split_ifs
    · exact .ok h rfl
    refine .bind (plainWord_tracks h (Nat.lt_succ_self _) (Nat.lt_succ_self _)) ?_ ?_
    · rintro ⟨word, c1⟩ ⟨text', broken, c'⟩ h
      simp only [bind, Except.bind, pure, Except.pure] at h
      grind
    rintro ⟨word, c1⟩ d1 hword (h1 : Clear s b c1 d1)
    simp only [Placed.moved, h1.gapAt_zero, h1.endsAt_zero, pure, Except.pure]
    generalize (if word.isEmpty then (text, g) else (text ++ g.fold ++ word, Gap.empty)) = r
    split_ifs with hends
    · exact .ok (.clear h1) rfl
    refine .bind (Gap.read_tracks (.clear h1) (Nat.lt_succ_self _) (Nat.lt_succ_self _)) ?_ ?_
    · rintro ⟨g', c2⟩ ⟨text', broken, c'⟩ h
      simp only [place_mk, place_cursor]
      grind
    rintro ⟨g', c2⟩ d2 hgap (h2 : Near s b c2 d2)
    simp only [Placed.moved, h2.column_eq]
    split_ifs
    · exact .ok h2 rfl
    · have hlt : c2.rest.length < c.rest.length := by
        have := Gap.read_length hgap (by simpa using hends)
        have := (plainWord_leadsTo hword).length_le
        omega
      have hlt' := h.length_lt h2 hlt
      exact ih h2 (by omega) (by omega)

theorem plainText_passed {l j k : Nat} (hk : k ≠ 0)
    (h : plainText inFlow i (n + 1) text g ⟨s.word ++ s.rest, l, j, k⟩ = .ok (text', flag, c')) :
    c'.Passed s.size := by
  have hmark : (Cursor.mk (s.word ++ s.rest) l j k).atDocumentMark = false := by
    simp [Cursor.atDocumentMark, beq_false_of_ne hk]
  have hsees : (Cursor.mk (s.word ++ s.rest) l j k).sees 0 '#' = false := rfl
  rw [plainText, hmark, hsees] at h
  obtain ⟨⟨word, c₁⟩, hword, h⟩ := bind_eq_ok_iff.1 h
  refine Cursor.LeadsTo.passed ?_ (plainWord_passed hword)
  simp only [bind, Except.bind, pure, Except.pure] at h
  grind

/-! ## Quoted scalars -/

/-- Characters ahead that are no blanks are the same from both places. -/
theorem Clear.take (h : Clear s b c d) (hsolid : ∀ x ∈ c.rest.take n, isBlank x = false) :
    d.rest.take n = c.rest.take n ∧ Clear s b (c.skip n) (d.skip n) := by
  induction n generalizing c d with
  | zero => exact ⟨rfl, h⟩
  | succ n ih =>
    have htake (c : Cursor) (x : Char) (hx : c.peek = some x) :
        c.rest.take (n + 1) = x :: c.next.rest.take n := by
      obtain ⟨_ | ⟨y, cs⟩, i, l, k⟩ := c
      · cases hx
      · cases hx
        rfl
    cases hx : c.peek with
    | none =>
      have hrest (c : Cursor) (hx : c.peek = none) : c.rest.take (n + 1) = [] ∧ c.next = c := by
        obtain ⟨_ | ⟨y, cs⟩, i, l, k⟩ := c
        · exact ⟨rfl, rfl⟩
        · cases hx
      obtain ⟨hc, hcn⟩ := hrest c hx
      obtain ⟨hd, hdn⟩ := hrest d (h.peek_eq.trans hx)
      rw [hc, hd, Cursor.skip, Cursor.skip, hcn, hdn]
      refine ⟨rfl, (ih h fun x hmem => hsolid x ?_).2⟩
      exact List.take_subset_take_left _ n.le_succ hmem
    | some x =>
      rw [htake c x hx] at hsolid ⊢
      rw [htake d x (h.peek_eq.trans hx), Cursor.skip, Cursor.skip]
      obtain ⟨hfst, hsnd⟩ := ih (h.next_of_solid hx (hsolid x (List.mem_cons_self ..)))
        fun y hy => hsolid y (List.mem_cons_of_mem _ hy)
      rw [hfst]
      exact ⟨rfl, hsnd⟩

theorem isBlank_of_hexValue? (h : (hexValue? x).isSome = true) : isBlank x = false := by
  cases hx : isBlank x with
  | false => rfl
  | true =>
    simp only [isBlank, Bool.or_eq_true, beq_iff_eq] at hx
    obtain rfl | rfl := hx <;> cases h

theorem isBlank_of_hexNumber? {cs : List Char} {k : Nat} (h : hexNumber? cs = some k) :
    ∀ x ∈ cs, isBlank x = false := by
  have hnone (cs : List Char) : cs.foldl
      (fun v c => v.bind fun v => (hexValue? c).map (v * 16 + ·)) none = none := by
    induction cs with
    | nil => rfl
    | cons c cs ih => exact ih
  have hall (v : Nat) : (cs.foldl (fun v c => v.bind fun v => (hexValue? c).map (v * 16 + ·))
      (some v)).isSome = true → ∀ x ∈ cs, isBlank x = false := by
    clear h
    induction cs generalizing v with
    | nil => exact fun _ _ hx => nomatch hx
    | cons c cs ih =>
      intro h
      rw [List.foldl_cons] at h
      cases hc : hexValue? c with
      | none =>
        simp only [hc, Option.bind_some, Option.map_none, hnone] at h
        cases h
      | some k =>
        simp only [hc, Option.bind_some, Option.map_some] at h
        rw [List.forall_mem_cons]
        exact ⟨isBlank_of_hexValue? (by rw [hc]; rfl), ih _ h⟩
  exact hall 0 (by rw [← hexNumber?, h]; rfl)

theorem readEscape_tracks (h : Clear s b c d) (hx : c.peek = some '\\') :
    Tracks (Near s) b (readEscape c) (readEscape d) := by
  have hnext := h.next_of_solid hx rfl
  have hsecond (c : Cursor) : c.rest[1]? = c.next.peek := by
    obtain ⟨_ | ⟨y, _ | ⟨z, cs⟩⟩, i, l, k⟩ := c <;> rfl
  rw [readEscape, readEscape, hsecond, hsecond, hnext.peek_eq]
  split
  · exact .error _ _
  next e he =>
    split
    next y _ =>
      exact .ok (hnext.next he) rfl
    next width hescape hwidth =>
      have hsolid : isBlank e = false := by
        cases hblank : isBlank e with
        | false => rfl
        | true =>
          simp only [isBlank, Bool.or_eq_true, beq_iff_eq] at hblank
          obtain rfl | rfl := hblank <;> cases hwidth
      have hnext' := hnext.next_of_solid he hsolid
      have hdrop (c : Cursor) : c.rest.drop 2 = c.next.next.rest := by
        obtain ⟨_ | ⟨y, _ | ⟨z, cs⟩⟩, i, l, k⟩ := c <;> rfl
      rw [hdrop, hdrop]
      dsimp only
      split
      next k hk =>
        obtain ⟨htake, hskip⟩ := hnext'.take (isBlank_of_hexNumber? hk)
        rw [htake, hk]
        dsimp only
        split_ifs
        · exact .error _ _
        · exact .ok (.clear hskip) rfl
      next => exact .error _ _
    next => exact .error _ _

theorem readEscape_length {y : Char} (hx : c.peek = some x) (h : readEscape c = .ok (y, c')) :
    c'.rest.length < c.rest.length := by
  have hskip (n : Nat) (hn : 0 < n) := c.length_skip hx hn
  simp only [readEscape] at h
  grind

/-- The dollar sign ends no word within quotes, so whatever is read at the word goes on behind it. -/
theorem quotedWord_passed {l j k : Nat} {r : List Char × Bool × Cursor}
    (h : quotedWord single (n + 1) ⟨s.word ++ s.rest, j, l, k⟩ = .ok r) :
    (Placed.place r).Passed s.size := by
  obtain ⟨word, flag, c'⟩ := r
  have hpeek : (Cursor.mk (s.word ++ s.rest) j l k).peek = some '$' := rfl
  have hsigns : (isBlank '$' || isBreak '$') = false := rfl
  have hquote : ('$' == if single then '\'' else '"') = false := by cases single <;> rfl
  rw [quotedWord] at h
  simp only [hpeek, hsigns, hquote, bind, Except.bind, pure, Except.pure] at h
  exact Cursor.LeadsTo.passed (by grind) (Near.passed_next j l k)

theorem quotedWord_tracks (h : Near s b c d) (hn : c.rest.length < n) (hm : d.rest.length < m) :
    Tracks (Clear s) b (quotedWord single n c) (quotedWord single m d) := by
  induction n generalizing m c d with
  | zero => omega
  | succ n ih =>
    obtain ⟨m, rfl⟩ : ∃ k, m = k + 1 := ⟨m - 1, by omega⟩
    cases h with
    | slot => exact .passed fun _ => quotedWord_passed
    | clear h =>
      rw [quotedWord, quotedWord, h.peek_eq]
      split
      next => exact .ok h rfl
      next x hx =>
        have hdx := h.peek_eq.trans hx
        have hlen := Cursor.length_next hx
        have hlen' := Cursor.length_next hdx
        cases hblank : isBlank x with
        | true => exact .ok h rfl
        | false =>
          have hnext := h.next_of_solid hx hblank
          have hrest (y : Char) {c1 d1 : Cursor} (h1 : Near s b c1 d1)
              (hlt : c1.rest.length < c.rest.length) : Tracks (Clear s) b
                (do let w ← quotedWord single n c1; return (y :: w.1, w.2))
                (do let w ← quotedWord single m d1; return (y :: w.1, w.2)) := by
            have hlt' := Near.length_lt (.clear h) h1 hlt
            exact .bind (ih h1 (by omega) (by omega)) (fun _ _ h => by cases h; exact .refl _)
              fun _ _ _ hclear => .ok hclear rfl
          rw [h.test_one hx hblank, h.sees_one hx hblank]
          generalize (if single then '\'' else '"') = quote
          dsimp only
          split_ifs with hbreak hdouble hquote hline hescape
          · exact .ok h rfl
          · have hsecond : c.next.sees 0 '\'' = true := by
              rw [← c.sees_succ]
              simp_all
            have hpeek := Cursor.sees_zero_iff.1 hsecond
            have hlen2 := Cursor.length_next hpeek
            exact hrest x (.clear (hnext.next_of_solid hpeek rfl)) (by
              show c.next.next.rest.length < _
              omega)
          · exact .ok h rfl
          · exact .ok hnext.lineBreak.2 rfl
          · obtain rfl : x = '\\' := by simp_all
            refine .bind (readEscape_tracks h hx) ?_ ?_
            · rintro ⟨y, c1⟩ ⟨word, flag, c'⟩ h
              simp only [bind, Except.bind, pure, Except.pure] at h
              grind
            · rintro ⟨y, c1⟩ d1 hread h1
              exact hrest y h1 (readEscape_length hx hread)
          · refine hrest x (h.next hx) ?_
            show c.next.rest.length < _
            omega

/-- Whoever reads a word moves on, unless a gap or the closing quote is next. -/
theorem quotedWord_length {word : List Char} (h : quotedWord single (n + 1) c = .ok (word, flag, c')) :
    c'.rest.length < c.rest.length ∨ c' = c ∧
      (c.endsAt 0 ∨ c.gapAt 0 = true ∨ c.sees 0 (if single then '\'' else '"') = true) := by
  simp only [quotedWord, bind, Except.bind, pure, Except.pure] at h
  cases hx : c.peek with
  | none =>
    have hend : c.endsAt 0 = true := by
      obtain ⟨_ | ⟨y, cs⟩, i, l, k⟩ := c
      · rfl
      · cases hx
    grind
  | some x =>
    have hlen := Cursor.length_next hx
    have hskip := c.length_skip hx (n := 2) (by omega)
    have hgap := Cursor.gapAt_zero_of_peek hx
    have hsees (y : Char) : c.sees 0 y = (x == y) := by
      rw [Bool.eq_iff_iff, Cursor.sees_zero_iff, hx, Option.some_inj, beq_iff_eq]
    have hescape (y : Char) (c' : Cursor) (h : readEscape c = .ok (y, c')) := readEscape_length hx h
    have hline := (c.next.leadsTo_lineBreak).length_le
    have hword {k : Nat} {c c' : Cursor} {w : List Char} {f : Bool}
      (h : quotedWord single k c = .ok (w, f, c')) := (quotedWord_leadsTo h).length_le
    simp only [hx] at h
    grind

theorem quotedText_tracks (h : Near s b c d) (hn : c.rest.length < n) (hm : d.rest.length < m) :
    Tracks (Near s) b (quotedText single n text c) (quotedText single m text d) := by
  induction n generalizing m text c d with
  | zero => omega
  | succ n ih =>
    obtain ⟨m, rfl⟩ : ∃ k, m = k + 1 := ⟨m - 1, by omega⟩
    rw [quotedText, quotedText, h.atDocumentMark, h.endsAt_zero]
    generalize hquote : (if single then '\'' else '"') = quote
    have hsolid : isBlank quote = false := by cases single <;> subst hquote <;> rfl
    split_ifs with hstop
    · exact .error _ _
    refine .bind (quotedWord_tracks h (Nat.lt_succ_self _) (Nat.lt_succ_self _)) ?_ ?_
    · rintro ⟨word, flag, c1⟩ ⟨text', c'⟩ h
      simp only [bind, Except.bind, pure, Except.pure] at h
      grind
    rintro ⟨word, flag, c1⟩ d1 hword (h1 : Clear s b c1 d1)
    simp only [Placed.moved, h1.sees_zero, pure, Except.pure]
    split_ifs with hsees
    · exact .ok (.clear (h1.next_of_solid (Cursor.sees_zero_iff.1 hsees) hsolid)) rfl
    refine .bind (Gap.read_tracks (.clear h1) (Nat.lt_succ_self _) (Nat.lt_succ_self _)) ?_ ?_
    · rintro ⟨g', c2⟩ ⟨text', c'⟩ h
      simp only [place_mk, place_cursor]
      grind
    rintro ⟨g', c2⟩ d2 hgap (h2 : Near s b c2 d2)
    have hlt : c2.rest.length < c.rest.length := by
      have := (Gap.read_leadsTo hgap).length_le
      rcases quotedWord_length hword with hlt | ⟨rfl, hend⟩
      · omega
      · rw [hquote] at hend
        exact Gap.read_length hgap (by simp_all)
    have hlt' := h.length_lt h2 hlt
    exact ih (c := c2) h2 (by omega) (m := m) (d := d2) (by omega)

/-! ## Block scalars -/

theorem chompingSign?_tracks (h : Clear s b c d) :
    (chompingSign? c = none ∧ chompingSign? d = none) ∨ ∃ chomping,
      chompingSign? c = some (chomping, c.next) ∧ chompingSign? d = some (chomping, d.next) ∧
        Clear s b c.next d.next := by
  have hsolid {x : Char} (hx : c.sees 0 x = true) (hblank : isBlank x = false) :=
    h.next_of_solid (Cursor.sees_zero_iff.1 hx) hblank
  unfold chompingSign?
  rw [h.sees_zero, h.sees_zero]
  split_ifs with hplus hminus
  · exact .inr ⟨_, rfl, rfl, hsolid hplus rfl⟩
  · exact .inr ⟨_, rfl, rfl, hsolid hminus rfl⟩
  · exact .inl ⟨rfl, rfl⟩

theorem isBlank_of_isDigit (h : x.isDigit = true) : isBlank x = false := by
  cases hblank : isBlank x with
  | false => rfl
  | true =>
    simp only [isBlank, Bool.or_eq_true, beq_iff_eq] at hblank
    obtain rfl | rfl := hblank <;> cases h

theorem blockWidth_tracks (h : Clear s b c d) :
    Tracks (Clear s) b (blockWidth c) (blockWidth d) := by
  rw [blockWidth, blockWidth, h.peek_eq]
  split
  next x hx =>
    split_ifs with hzero hdigit
    · exact .error _ _
    · exact .ok (h.next_of_solid hx (isBlank_of_isDigit hdigit)) rfl
    · exact .ok h rfl
  next => exact .ok h rfl

theorem blockHeader_tracks (h : Clear s b c d) :
    Tracks (Clear s) b (blockHeader c) (blockHeader d) := by
  rw [blockHeader_eq, blockHeader_eq]
  rcases chompingSign?_tracks h with ⟨hc, hd⟩ | ⟨chomping, hc, hd, hnext⟩
  · rw [hc, hd]
    refine .bind (blockWidth_tracks h) ?_ ?_
    · rintro ⟨k, c1⟩ ⟨chomping, k', c'⟩ h
      simp only [pure, Except.pure] at h
      grind
    rintro ⟨k, c1⟩ d1 - (h1 : Clear s b c1 d1)
    simp only [Placed.moved]
    split_ifs
    · exact .ok h1 rfl
    · rcases chompingSign?_tracks h1 with ⟨hc, hd⟩ | ⟨chomping, hc, hd, hnext⟩
      · rw [hc, hd]
        exact .ok h1 rfl
      · rw [hc, hd]
        exact .ok hnext rfl
  · rw [hc, hd]
    exact .bind (blockWidth_tracks hnext) (fun _ _ h => by cases h; exact .refl _)
      fun _ _ _ h => .ok h rfl

theorem Near.skip_spaces (h : Near s b c d) (hn : n ≤ (c.rest.takeWhile (· == ' ')).length) :
    Near s b (c.skip n) (d.skip n) := by
  induction n generalizing c d with
  | zero => exact h
  | succ n ih =>
    obtain ⟨hhead, hle⟩ : c.peek = some ' ' ∧ n ≤ (c.next.rest.takeWhile (· == ' ')).length := by
      obtain ⟨_ | ⟨x, cs⟩, i, l, k⟩ := c
      · simp at hn
      · rw [List.takeWhile_cons] at hn
        split at hn
        next hx => exact ⟨congrArg some (beq_iff_eq.1 hx), Nat.le_of_succ_le_succ hn⟩
        · cases hn
    cases h with
    | clear h => exact ih (h.next hhead) hle
    | slot => cases hhead

theorem Near.spaces_eq (h : Near s b c d) :
    d.rest.takeWhile (· == ' ') = c.rest.takeWhile (· == ' ') := by
  have hstop (x : Char) (hx : x ≠ ' ') (cs rest : List Char) :
      (cs ++ x :: rest).takeWhile (· == ' ') = cs.takeWhile (· == ' ') := by
    induction cs with
    | nil => exact List.takeWhile_cons_of_neg (by simpa using hx)
    | cons y cs ih => rw [List.cons_append, List.takeWhile_cons, List.takeWhile_cons, ih]
  have hword := hstop '$' (by decide)
  have hvalue := hstop s.first s.first_ne_space
  cases h with
  | clear h =>
    cases h with
    | ahead x cs i l k hlast =>
      exact (hvalue (x :: cs) (s.others ++ s.rest)).trans
        (hword (x :: cs) ('{' :: (s.name ++ ['}']) ++ s.rest)).symm
    | behind => rfl
  | slot =>
    exact (hvalue [] (s.others ++ s.rest)).trans
      (hword [] ('{' :: (s.name ++ ['}']) ++ s.rest)).symm

theorem blockBreaks_tracks {indent widest : Nat} (h : Near s b c d) (hn : c.rest.length < n)
    (hm : d.rest.length < m) : Tracks (Near s) b (blockBreaks indent n text widest c)
      (blockBreaks indent m text widest d) := by
  induction n generalizing m text widest c d with
  | zero => omega
  | succ n ih =>
    obtain ⟨m, rfl⟩ : ∃ k, m = k + 1 := ⟨m - 1, by omega⟩
    rw [blockBreaks, blockBreaks, h.spaces_eq, h.column_eq]
    generalize hk : (if indent == 0 then (c.rest.takeWhile (· == ' ')).length
      else min (c.rest.takeWhile (· == ' ')).length (indent - c.column)) = k
    have h1 : Near s b (c.skip k) (d.skip k) := h.skip_spaces (by
      subst hk
      split_ifs
      · exact Nat.le_refl _
      · exact Nat.min_le_left _ _)
    have hlen := (c.leadsTo_skip k).length_le
    have hlen' := (d.leadsTo_skip k).length_le
    dsimp only
    rw [h1.column_eq, h1.test_zero (p := isBreak) rfl s.isBreak_first,
      show (d.skip k).sees 0 '\t' = (c.skip k).sees 0 '\t' from
        h1.test_zero rfl (beq_false_of_ne s.first_ne_tab)]
    split_ifs with htab hbreak
    · exact .error _ _
    · obtain ⟨hfst, hsnd⟩ := h1.lineBreak
      have hline := Cursor.length_lineBreak hbreak
      have hline' := h1.length_lt hsnd hline
      rw [hfst]
      exact ih hsnd (by omega) (by omega)
    · exact .ok h1 rfl

theorem Cursor.length_line (hend : c.endsAt 0 = false) :
    (c.span fun x => !isBreak x).2.lineBreak.2.rest.length < c.rest.length := by
  obtain ⟨x, hx⟩ : ∃ x, c.peek = some x := by
    obtain ⟨_ | ⟨x, cs⟩, i, l, k⟩ := c
    · cases hend
    · exact ⟨x, rfl⟩
  cases hbreak : isBreak x with
  | true =>
    rw [Cursor.span_of_neg (by rw [Cursor.test_zero_of_peek hx, hbreak]; rfl)]
    exact Cursor.length_lineBreak (Cursor.test_zero_iff.2 ⟨x, hx, hbreak⟩)
  | false =>
    have hlen := Cursor.length_next hx
    rw [Cursor.span_of_pos hx (by simp [hbreak])]
    have hspan := (c.next.leadsTo_span fun x => !isBreak x).length_le
    have hline := (c.next.span fun x => !isBreak x).2.leadsTo_lineBreak.length_le
    show (c.next.span fun x => !isBreak x).2.lineBreak.2.rest.length < _
    omega

theorem blockLines_tracks {indent : Nat} {chomping : Chomping} {last breaks : List Char}
    {blankLine : Bool} (h : Near s b c d) (hn : c.rest.length < n) (hm : d.rest.length < m) :
    Tracks (Near s) b (blockLines single chomping indent n text last breaks blankLine c)
      (blockLines single chomping indent m text last breaks blankLine d) := by
  induction n generalizing m text last breaks blankLine c d with
  | zero => omega
  | succ n ih =>
    obtain ⟨m, rfl⟩ : ∃ k, m = k + 1 := ⟨m - 1, by omega⟩
    unfold blockLines
    rw [h.column_eq, h.endsAt_zero, h.test_zero (p := isBlank) rfl s.isBlank_first]
    dsimp only
    split
    next hline =>
      rcases h.span (p := fun x => !isBreak x) (.inl rfl) with hpassed | ⟨hfst, hspan⟩
      · refine .passed fun ⟨text', c'⟩ hread => Cursor.LeadsTo.passed ?_ hpassed
        obtain ⟨⟨later, widest, c1⟩, hbreaks, hlines⟩ := bind_eq_ok_iff.1 hread
        grind
      obtain ⟨hbreak, hnext⟩ := hspan.lineBreak
      rw [hfst, hbreak]
      refine .bind (blockBreaks_tracks hnext (Nat.lt_succ_self _) (Nat.lt_succ_self _)) ?_ ?_
      · rintro ⟨later, widest, c1⟩ ⟨text', c'⟩ h
        grind
      rintro ⟨later, widest, c1⟩ d1 hbreaks (h1 : Near s b c1 d1)
      have hlt := Cursor.length_line (c := c) (by simp_all)
      have hle := (blockBreaks_leadsTo hbreaks).length_le
      have hlt' := h.length_lt h1 (by omega)
      exact ih (c := c1) h1 (by omega) (m := m) (d := d1) (by omega)
    next =>
      cases chomping with
      | strip => exact .ok h rfl
      | clip => exact .ok h rfl
      | keep => exact .ok h rfl

theorem blockText_tracks (h : Clear s b c d) :
    Tracks (Near s) b (blockText single i c) (blockText single i d) := by
  refine .bind (blockHeader_tracks h) ?_ ?_
  · rintro ⟨chomping, increment, c1⟩ ⟨text', c'⟩ h
    obtain ⟨-, h⟩ := guard_eq_ok_iff.1 h
    obtain ⟨⟨breaks, widest, c2⟩, hbreaks, hlines⟩ := bind_eq_ok_iff.1 h
    grind
  rintro ⟨chomping, increment, c1⟩ d1 - (h1 : Clear s b c1 d1)
  rcases Near.skipRemark (.clear h1) with hpassed | h2
  · refine .passed fun ⟨text', c'⟩ h => Cursor.LeadsTo.passed ?_ hpassed
    obtain ⟨-, h⟩ := guard_eq_ok_iff.1 h
    obtain ⟨⟨breaks, widest, c2⟩, hbreaks, hlines⟩ := bind_eq_ok_iff.1 h
    grind
  simp only [Placed.moved, h2.atLineEnd]
  refine .ite (fun _ => .error _ _) fun _ => ?_
  refine .bind (blockBreaks_tracks h2.lineBreak.2 (Nat.lt_succ_self _) (Nat.lt_succ_self _)) ?_ ?_
  · rintro ⟨breaks, widest, c2⟩ ⟨text', c'⟩ h
    grind
  rintro ⟨breaks, widest, c2⟩ d2 - (h3 : Near s b c2 d2)
  exact blockLines_tracks h3 (Nat.lt_succ_self _) (Nat.lt_succ_self _)

end TokenKeeper.Yaml
