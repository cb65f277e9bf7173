import TokenKeeper.Proofs.Slot.Plain
import TokenKeeper.Proofs.Slot.Scanner

/-!
# Lines and columns

What the layout of a text says about the states of the scanner. Behind the colon of a key what is
read stands further in than the block around it (`Scanner.indent_lt_of_value`). Where nothing but a
comment is left on a line, whatever might have been a key is none, and the next token is the same as
if no key could have begun there (`Scanner.fetch_of_idle`).
-/

namespace TokenKeeper.Yaml

variable {s s' s₁ : Scanner} {n m : Nat} {t : Token} {k : Candidate} {c : Cursor}

namespace Cursor

theorem test_of_remark {p : Char → Bool} (hrest : ∀ x ∈ c.rest.head?, x = '#') (hp : p '#' = false) :
    c.test 0 p = false := by
  obtain ⟨_ | ⟨y, cs⟩, i, l, k⟩ := c
  · rfl
  · obtain rfl := hrest y rfl
    simpa [Cursor.test] using hp

theorem rest_skipWhile (c : Cursor) (p : Char → Bool) :
    (c.skipWhile p).rest = c.rest.dropWhile p := by
  have hdrop : (c.rest.takeWhile p ++ c.rest.dropWhile p).drop (c.rest.takeWhile p).length =
      c.rest.dropWhile p := List.drop_left
  rwa [List.takeWhile_append_dropWhile] at hdrop

theorem atLineEnd_of_remark (hrest : ∀ x ∈ c.rest.head?, x = '#') :
    c.skipComment.rest = [] ∨ c.skipComment.test 0 isBreak = true := by
  have hremark : c.skipComment.rest = c.rest.dropWhile fun x => !isBreak x := by
    rw [Cursor.skipComment]
    split_ifs with hsign
    · exact rest_skipWhile c _
    · cases hc : c.rest with
      | nil => rfl
      | cons y cs =>
        rw [hc] at hrest
        exact absurd (by simp [Cursor.sees, Cursor.test, hc, hrest y rfl]) hsign
  cases hx : c.skipComment.rest with
  | nil => exact .inl rfl
  | cons x cs =>
    right
    have hbreak : (!isBreak x) = false := head?_dropWhile_eq (by rw [← hremark, hx]; rfl)
    simpa [Cursor.test, hx] using hbreak

theorem line_lineBreak (h : c.test 0 isBreak = true) : c.lineBreak.2.line = c.line + 1 := by
  obtain ⟨x, hx, hbreak⟩ := Cursor.test_zero_iff.1 h
  by_cases hreturn : x = '\r' ∧ c.next.sees 0 '\n' = true
  · rw [Cursor.lineBreak_of_return (hreturn.1 ▸ hx) hreturn.2]
    obtain ⟨_ | ⟨y, _ | ⟨z, cs⟩⟩, i, l, k⟩ := c <;> rfl
  · rw [Cursor.lineBreak_of_break hx hbreak fun hr => Bool.eq_false_iff.2 fun h => hreturn ⟨hr, h⟩]
    obtain ⟨_ | ⟨y, cs⟩, i, l, k⟩ := c <;> rfl

end Cursor

namespace Scanner

theorem openBlock_flow (s : Scanner) (column n : Nat) (t : Token) :
    (s.openBlock column n t).flow = s.flow := by
  rw [openBlock]
  split_ifs <;> rfl

theorem indent_openBlock_le (s : Scanner) (column n : Nat) (t : Token) {i : Int}
    (hindent : s.indent ≤ i) (hcolumn : column ≤ i) : (s.openBlock column n t).indent ≤ i := by
  rw [openBlock]
  split_ifs
  · exact hcolumn
  · exact hindent

/-- Behind the colon of a key on its line, what is read stands further in than the block. -/
theorem indent_lt_of_value (hsound : s.Sound) (h : s.fetch = .ok s')
    (hback : s'.tokens.back? = some .value) (hkey : s'.keyAllowed = false) (hflow : s'.flow = 0)
    (hrest : s'.place.rest ≠ []) : s'.indent < s'.place.column := by
  obtain ⟨s₁, -, hreaches, htakes⟩ := takes_of_fetch h
  have hsound₁ := hreaches.sound hsound
  cases htakes with
  | quiet _ hvalue =>
    have htake := hvalue hback
    unfold takeValue at htake
    split at htake
    next k ks hks =>
      cases htake
      have hk : some k ∈ s₁.candidates := hks ▸ List.mem_cons_self
      have hcolumn : k.column ≤ s₁.place.column := by
        have hbehind := hsound₁.behind k hk
        have hfresh := hreaches.fresh k hk
        simp only [isStale, Bool.or_eq_false_iff, decide_eq_false_iff_not] at hfresh
        omega
      have hflow₁ : s₁.flow = 0 := by
        have := openBlock_flow (s₁.insertAt k.token .key) k.column k.token .blockMapping
        exact this.symm.trans hflow
      have hindent := hreaches.indent hsound (hreaches.flow.symm.trans hflow₁)
      have hopen := indent_openBlock_le (s₁.insertAt k.token .key) k.column k.token .blockMapping
        (i := s₁.place.column) hindent (by omega)
      have hplace : ((s₁.insertAt k.token .key).openBlock k.column k.token .blockMapping).place =
          s₁.place := openBlock_place _ _ _ _
      show ((s₁.insertAt k.token .key).openBlock k.column k.token .blockMapping).indent <
        (((s₁.insertAt k.token .key).openBlock k.column k.token .blockMapping).place.next.column : Int)
      change ((s₁.insertAt k.token .key).openBlock k.column k.token .blockMapping).place.next.rest ≠
        [] at hrest
      rw [hplace] at hrest ⊢
      have hnext : s₁.place.next.column = s₁.place.column + 1 := by
        unfold Cursor.next at hrest ⊢
        split
        next hnil => simp [hnil] at hrest
        · rfl
      omega
    next =>
      obtain ⟨-, htake⟩ := guard_eq_ok_iff.1 htake
      cases htake
      have hkey' : ((s₁.openBlock s₁.place.column s₁.tokens.size .blockMapping).flow == 0) = false :=
        hkey
      have hflow' : (s₁.openBlock s₁.place.column s₁.tokens.size .blockMapping).flow = 0 := hflow
      rw [hflow'] at hkey'
      cases hkey'
  | atEnd => simp [push] at hback
  | plain => simp [push] at hback

/-! ## Where nothing is left on the line -/

theorem gapEnd_of_remark (hrest : ∀ x ∈ s.place.rest.head?, x = '#') :
    s.gapEnd = s.place.skipComment := by
  have hmark : s.place.sees 0 '\uFEFF' = false := Cursor.test_of_remark hrest rfl
  rw [gapEnd, hmark, Bool.and_false, if_neg Bool.false_ne_true, Cursor.skipWhile,
    Cursor.span_of_neg (Cursor.test_of_remark hrest (by simp))]

theorem skipGap_of_remark (hrest : ∀ x ∈ s.place.rest.head?, x = '#') :
    (s.skipGap (n + 1)).place.rest = [] ∨ s.place.line < (s.skipGap (n + 1)).place.line := by
  rw [skipGap_succ, gapEnd_of_remark hrest]
  split_ifs with hbreak
  · right
    have hline : s.place.skipComment.line = s.place.line := by
      rw [Cursor.skipComment]
      split_ifs <;> rfl
    have hnext : s.onNewLine.place.line = s.place.line + 1 := by
      show s.gapEnd.lineBreak.2.line = _
      rw [gapEnd_of_remark hrest, Cursor.line_lineBreak hbreak, hline]
    have := (s.onNewLine.extends_skipGap n).leads.order
    omega
  · exact .inl ((Cursor.atLineEnd_of_remark hrest).resolve_right hbreak)

/-- Where a gap is on one line no key is allowed that was not. -/
theorem skipGap_line (hflow : s.flow = 0) (h : (s.skipGap n).keyAllowed = false) :
    s.keyAllowed = false ∧ (s.skipGap n).place.line = s.place.line := by
  have hallowed (s : Scanner) (n : Nat) (h : (s.skipGap n).keyAllowed = false) :
      s.keyAllowed = false := by
    induction n generalizing s with
    | zero => exact h
    | succ n ih =>
      rw [skipGap_succ] at h
      split_ifs at h
      · exact (Bool.or_eq_false_iff.1 (ih s.onNewLine h)).1
      · exact h
  refine ⟨hallowed s n h, ?_⟩
  cases n with
  | zero => rfl
  | succ n =>
    rw [skipGap_succ] at h ⊢
    split_ifs at h ⊢
    · have := (Bool.or_eq_false_iff.1 (hallowed s.onNewLine n h)).2
      rw [hflow] at this
      cases this
    · show s.gapEnd.line = s.place.line
      rw [gapEnd, Cursor.skipComment]
      simp only [Cursor.skipWhile, Cursor.span]
      split_ifs <;> first | rfl | (unfold Cursor.next; split <;> rfl)

theorem takeNext_of_end (hrest : s.place.rest = []) : s.takeNext = s.takeEnd := by
  have hpeek : s.place.peek = none := by rw [Cursor.peek, hrest, List.head?_nil]
  simp only [takeNext, hpeek]

theorem dropStale_single (hk : s.candidates = [some k]) : s.dropStale =
    if s.isStale k && k.required then .error .key
    else .ok { s with candidates := [if s.isStale k then none else some k] } := by
  cases h : s.isStale k <;> simp [dropStale, hk, h, Option.filter]

theorem takeEnd_single (hk : s.candidates = [some k]) : s.takeEnd =
    if k.required then .error .key else { s with candidates := [none] }.takeEnd := by
  have hks : (s.closeBlocks (-1)).candidates = [some k] := by
    rw [closeBlocks_frame]
    exact hk
  have hnone : ({ s with candidates := [none] } : Scanner).closeBlocks (-1) =
      { s.closeBlocks (-1) with candidates := [none] } := by
    have hwith := closeBlocks_with s s.place s.keyAllowed [none] (-1)
    rw [closeBlocks_frame s] at hwith ⊢
    exact hwith
  simp only [takeEnd, outermost, dropCandidate, hks, hnone]
  split_ifs <;> rfl

/-- Outside brackets, where no key can end any more on its line, the place where one may have begun
was not that of a key that has to be, and is of no account. -/
theorem fetch_of_idle (hsound : s.Sound) (hflow : s.flow = 0)
    (hidle : (∀ x ∈ s.place.rest.head?, x = '#') ∨
      ∀ k, some k ∈ s.candidates → k.line < s.place.line) (h : s.fetch = .ok s') :
    (∀ k, some k ∈ s.candidates → k.required = false) ∧
      { s with candidates := [none] }.fetch = .ok s' := by
  obtain ⟨o, ho⟩ : ∃ o, s.candidates = [o] := List.length_eq_one_iff.1 (by rw [hsound.levels, hflow])
  have hgap : (s.skipGap (s.place.rest.length + 1)).place.rest = [] ∨
      ∀ k, some k ∈ s.candidates → k.line < (s.skipGap (s.place.rest.length + 1)).place.line := by
    rcases hidle with hremark | hline
    · refine (skipGap_of_remark hremark).imp_right fun hlt k hk => ?_
      have := hsound.behind k hk
      omega
    · refine .inr fun k hk => ?_
      have := hline k hk
      have := (s.extends_skipGap (s.place.rest.length + 1)).leads.order
      omega
  have hframe := skipGap_candidates s s.candidates (s.place.rest.length + 1)
  change s.skipGap _ = _ at hframe
  rw [fetch_eq] at h ⊢
  show _ ∧ (skipGap { s with candidates := [none] } (s.place.rest.length + 1)).dropStale.bind _ = _
  rw [skipGap_candidates]
  generalize s.skipGap (s.place.rest.length + 1) = u at h hgap hframe
  have hu : u.candidates = [o] := by rw [hframe, ho]
  rw [ho]
  cases o with
  | none =>
    refine ⟨by simp, ?_⟩
    rw [hframe, ho] at h
    exact h
  | some k =>
    have hnone : ({ u with candidates := [none] } : Scanner).dropStale =
        .ok { u with candidates := [none] } := by simp [dropStale]
    rw [hnone]
    rw [ho] at hgap
    have hdrop := dropStale_single hu
    -- the place is given up as too far back, or the text ends and nothing else can be read
    cases hstale : u.isStale k with
    | true =>
      simp only [hstale, Bool.true_and, ↓reduceIte] at hdrop
      rw [hdrop] at h
      split_ifs at h with hrequired
      · cases h
      · exact ⟨by simpa using hrequired, h⟩
    | false =>
      have hend : u.place.rest = [] := hgap.resolve_right fun hline => by
        simp [isStale, hline k] at hstale
      simp only [hstale, Bool.false_and, Bool.false_eq_true, ↓reduceIte] at hdrop
      have htake (ks : List (Option Candidate)) :
          ({ u with candidates := ks }.closeBlocks u.place.column).takeNext =
            ({ u with candidates := ks }.closeBlocks u.place.column).takeEnd :=
        takeNext_of_end (by rw [closeBlocks_frame]; exact hend)
      have hclose (ks : List (Option Candidate)) :=
        closeBlocks_with u u.place u.keyAllowed ks u.place.column
      rw [hdrop] at h
      have h' := (htake [some k]).symm.trans h
      rw [takeEnd_single (by rw [hclose [some k]])] at h'
      split_ifs at h' with hrequired
      refine ⟨by simpa using hrequired, (htake [none]).trans ?_⟩
      rw [← h', hclose [some k], hclose [none]]

theorem skipGap_fuel (hn : s.place.rest.length < n) (hm : s.place.rest.length < m) :
    s.skipGap n = s.skipGap m := by
  induction n generalizing m s with
  | zero => omega
  | succ n ih =>
    obtain ⟨m, rfl⟩ : ∃ j, m = j + 1 := ⟨m - 1, by omega⟩
    rw [skipGap_succ, skipGap_succ]
    split_ifs with hbreak
    · have hlength : s.onNewLine.place.rest.length < s.gapEnd.rest.length :=
        Cursor.length_lineBreak hbreak
      have := s.leadsTo_gapEnd.length_le
      exact ih (by omega) (by omega)
    · rfl

/-- From the end of a line the next token is that of the next line. -/
theorem fetch_of_break (h : s.gapEnd.test 0 isBreak = true) : s.fetch = s.onNewLine.fetch := by
  have hlength : s.onNewLine.place.rest.length < s.gapEnd.rest.length := Cursor.length_lineBreak h
  have := s.leadsTo_gapEnd.length_le
  rw [fetch_eq, fetch_eq, skipGap_succ, if_pos h,
    skipGap_fuel (m := s.onNewLine.place.rest.length + 1) (by omega) (Nat.lt_succ_self _)]

/-- What is added at the end of the text. -/
theorem tokens_of_end (hend : s.gapEnd.rest = []) (h : s.fetch = .ok s') :
    s'.finished = true ∧ s'.tokens = (s.closeBlocks (-1)).tokens.push .streamEnd := by
  have hbreak : s.gapEnd.test 0 isBreak = false := by rw [Cursor.test, hend]; rfl
  have hgap : s.skipGap (s.place.rest.length + 1) = { s with place := s.gapEnd } := by
    rw [skipGap_succ, hbreak]
    rfl
  rw [fetch_eq, hgap] at h
  obtain ⟨r, hr, h⟩ := bind_eq_ok_iff.1 h
  have hplace : r.place = s.gapEnd := by rw [dropStale_frame hr]
  rw [takeNext_of_end (by rw [closeBlocks_frame, hplace]; exact hend)] at h
  obtain ⟨r₁, hr₁, h⟩ := bind_eq_ok_iff.1 h
  obtain ⟨r₂, hr₂, h₁⟩ := bind_eq_ok_iff.1 hr₁
  cases h₁
  cases h
  refine ⟨rfl, congrArg (Array.push · Token.streamEnd) ?_⟩
  have hclose : (r.closeBlocks (-1)).tokens = (s.closeBlocks (-1)).tokens := by
    have hwith := congrArg tokens (closeBlocks_with s s.gapEnd s.keyAllowed r.candidates (-1))
    rw [dropStale_frame hr]
    exact hwith
  show r₂.tokens = _
  rw [dropCandidate_frame hr₂, closeBlocks_closeBlocks (by omega)]
  exact hclose

end Scanner

end TokenKeeper.Yaml
