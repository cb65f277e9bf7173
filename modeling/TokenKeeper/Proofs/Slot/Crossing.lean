import TokenKeeper.Proofs.Slot.Layout
import TokenKeeper.Proofs.Slot.Twin

/-!
# Passing the word

The step that reads the word as a scalar (`ReadsWord`) reads the value in its place where the value is
text without marks and nothing but a comment follows on the line (`Twin.cross`). From there on the two
texts are read alike again (`Crossed.fetch`), although the columns differ up to the end of the line.
-/

namespace TokenKeeper.Yaml

variable {s : Slot} {b n m l : Nat} {c c' d : Cursor} {S S' R R' : Scanner} {k : Candidate} {i : Int}
  {broken : Bool} {text u v : List Char}

namespace Slot

/-- Word and value can each stand in the place: the value is text without marks, and nothing but
blanks or a comment is behind it on its line. -/
structure Fits (s : Slot) : Prop where
  name : ∀ x ∈ s.name, isSolid x = true
  value : Goes s.value
  begins : Scanner.isIndicator s.first = false ∨
    (s.first = '-' ∨ s.first = '?' ∨ s.first = ':') ∧ ∃ x ∈ s.others.head?, isSolid x = true
  line : ∃ blanks tail, s.rest = blanks ++ tail ∧ (∀ x ∈ blanks, isBlank x = true) ∧
    ∀ x ∈ tail.head?, isBreak x = true ∨ (x = '#' ∧ blanks ≠ [])

theorem Fits.solid (h : s.Fits) : ∀ x ∈ s.word, isSolid x = true := by
  intro x hx
  simp only [word, List.mem_cons, List.mem_append, List.not_mem_nil, or_false] at hx
  obtain rfl | rfl | hx | rfl := hx
  · rfl
  · rfl
  · exact h.name x hx
  · rfl

theorem Fits.word (h : s.Fits) : Goes s.word := by
  refine .of_solid h.solid (List.cons_ne_nil _ _) ?_ ?_
  · rintro x ⟨⟩
    decide
  · intro x hx
    have hlast : s.word.getLast? = some '}' := by
      rw [Slot.word, ← List.cons_append, ← List.cons_append, List.getLast?_concat]
    obtain rfl := Option.some.inj (hlast.symm.trans hx)
    decide

theorem Fits.rest (h : s.Fits) : ∀ x ∈ s.rest.head?, isSolid x = false := by
  obtain ⟨blanks, tail, hrest, hblank, htail⟩ := h.line
  rw [hrest]
  intro x hx
  cases blanks with
  | nil =>
    rcases htail x hx with hbreak | ⟨-, hne⟩
    · rw [isSolid_eq_false, hbreak, Bool.or_true]
    · exact absurd rfl hne
  | cons y blanks =>
    cases hx
    rw [isSolid_eq_false, hblank x List.mem_cons_self, Bool.true_or]

end Slot

/-- Corresponding places behind the word: on its line with nothing ahead but a comment, or on a
later one. -/
inductive Beyond (s : Slot) (l : Nat) : Cursor → Cursor → Prop
  | remark (cs : List Char) (i j k k' : Nat) (hcs : ∀ x ∈ cs.head?, x = '#') (hi : i ≠ 0)
      (hj : j ≠ 0) (hij : i + s.value.length = j + s.word.length) :
      Beyond s l ⟨cs, i, l, k⟩ ⟨cs, j, l, k'⟩
  | newLine {c d : Cursor} (h : Clear s 0 c d) (hl : l < c.line) : Beyond s l c d

/-- What adds nothing to one text adds nothing to another. -/
theorem plainText_tracks_nothing {g : Gap} (hcd : Clear s 0 c d) (hn : c.rest.length < n)
    (hm : d.rest.length < m) (h : plainText false i n u g c = .ok (u, broken, c')) :
    ∃ d', plainText false i m v g d = .ok (v, broken, d') ∧ Clear s 0 c' d' := by
  have hread : Tracks (Near s) 0 (plainText false i n [] g c) (plainText false i m [] g d) :=
    plainText_tracks (.clear hcd) hn hm
  rw [← List.append_nil u, plainText_append] at h
  obtain ⟨⟨text, flag, e⟩, hr, hsame⟩ := map_eq_ok_iff.1 h
  simp only [List.append_nil, Prod.mk.injEq] at hsame
  obtain ⟨htext, rfl, rfl⟩ := hsame
  obtain rfl : text = [] := by simpa using htext
  obtain ⟨d', hd, hnear⟩ := (hread _ hr).resolve_left Cursor.not_passed_zero
  refine ⟨d', ?_, hnear.clear_of_zero⟩
  rw [← List.append_nil v, plainText_append, hd]
  rfl

/-- Behind a break the texts go on alike: columns are counted anew. -/
theorem afterBreak_beyond {tail : List Char} {g : Gap} {x : Char} {a a' k k' : Nat}
    (hx : x ∈ tail.head?) (hbreak : isBreak x = true) (hg : g.broken = false) (ha : a ≠ 0)
    (ha' : a' ≠ 0) (haa : a + s.value.length = a' + s.word.length) (hn : tail.length < n)
    (hm : tail.length < m)
    (h : ((Gap.read i (tail.length + 1) g ⟨tail, a, l, k⟩).bind fun r =>
      if (r.2.column : Int) < i then .ok (u, r.1.broken, r.2)
      else plainText false i n u r.1 r.2) = .ok (u, broken, c)) :
    ∃ d, ((Gap.read i (tail.length + 1) g ⟨tail, a', l, k'⟩).bind fun r =>
      if (r.2.column : Int) < i then .ok (v, r.1.broken, r.2)
      else plainText false i m v r.1 r.2) = .ok (v, broken, d) ∧ Beyond s l c d := by
  have hclear : Clear s 0 ⟨tail, a, l, 0⟩ ⟨tail, a', l, 0⟩ := .behind tail a a' l 0 ha ha' haa
  have htest (a : Nat) : (Cursor.mk tail a l 0).test 0 isBreak = true :=
    Cursor.test_zero_iff.2 ⟨x, hx, hbreak⟩
  have hline : (Cursor.mk tail a l 0).lineBreak.2.line = l + 1 := Cursor.line_lineBreak (htest a)
  have hlength (a : Nat) : (Cursor.mk tail a l 0).lineBreak.2.rest.length < tail.length :=
    Cursor.length_lineBreak (htest a)
  obtain ⟨hbreaks, hnext⟩ := hclear.lineBreak
  rw [Gap.read_of_break hx hbreak hg] at h ⊢
  rw [hbreaks]
  have hless := hlength a
  have hless' := hlength a'
  generalize (Cursor.mk tail a l 0).lineBreak = r, (Cursor.mk tail a' l 0).lineBreak = r' at *
  obtain ⟨⟨g, c₂⟩, hread, h⟩ := bind_eq_ok_iff.1 h
  obtain ⟨d₂, hd₂, hnear⟩ := (Gap.read_tracks (.clear hnext) hless hless' _ hread).resolve_left
    Cursor.not_passed_zero
  have hclear₂ := hnear.clear_of_zero
  have hleads := Gap.read_leadsTo hread
  have := hleads.length_le
  have := hleads.order
  simp only [Placed.moved, place_mk, place_cursor] at hd₂ hclear₂
  rw [hd₂]
  dsimp only [Except.bind] at h ⊢
  rw [hclear₂.column_eq]
  split_ifs at h ⊢ with hcolumn
  · cases h
    exact ⟨_, rfl, .newLine hclear₂ (by omega)⟩
  · have := (Near.clear hclear₂).length_eq
    have hsize : s.size ≠ 0 := Nat.succ_ne_zero _
    obtain ⟨e, he, hclear₃⟩ :=
      plainText_tracks_nothing (v := v) (m := m) hclear₂ (by omega) (by omega) h
    have := (plainText_leadsTo h).order
    exact ⟨e, he, .newLine hclear₃ (by omega)⟩

/-- What follows the word and adds nothing to it follows the value as well. -/
theorem afterWord_beyond (hfits : s.Fits) {a k : Nat} (a' k' : Nat) (ha : a ≠ 0) (ha' : a' ≠ 0)
    (hk : k ≠ 0) (hk' : k' ≠ 0) (haa : a + s.value.length = a' + s.word.length)
    (hn : s.rest.length < n) (hm : s.rest.length < m)
    (h : afterWord i n u ⟨s.rest, a, l, k⟩ = .ok (u, broken, c)) :
    ∃ d, afterWord i m v ⟨s.rest, a', l, k'⟩ = .ok (v, broken, d) ∧ Beyond s l c d := by
  by_cases hnil : s.rest = []
  · rw [hnil] at h ⊢
    cases h
    exact ⟨_, rfl, .remark [] a a' k k' (by simp) ha ha' haa⟩
  obtain ⟨blanks, tail, hrest, hblank, htail⟩ := hfits.line
  have hhead := hfits.rest
  rw [hrest] at hnil hhead h hn hm ⊢
  rw [List.length_append] at hn hm
  rw [afterWord_of_blanks hblank hhead hnil] at h ⊢
  by_cases hremark : ∀ x ∈ tail.head?, x = '#'
  · have hstop : ∀ x ∈ tail.head?, isSolid x = true := fun x hx => by rw [hremark x hx]; rfl
    obtain ⟨n, rfl⟩ : ∃ j, n = j + 1 := ⟨n - 1, by omega⟩
    obtain ⟨m, rfl⟩ : ∃ j, m = j + 1 := ⟨m - 1, by omega⟩
    -- wherever the block is, nothing is added
    rw [Gap.read_stop hstop, Except.bind, plainText_remark (by omega) hremark] at h
    rw [Gap.read_stop hstop, Except.bind, plainText_remark (by omega) hremark]
    rw [ite_self] at h ⊢
    cases h
    exact ⟨_, rfl, .remark tail _ _ _ _ hremark (by omega) (by omega) (by omega)⟩
  · obtain ⟨x, hx, hne⟩ : ∃ x ∈ tail.head?, x ≠ '#' := by simpa using hremark
    have hbreak : isBreak x = true := (htail x hx).resolve_right fun h => hne h.1
    exact afterBreak_beyond hx hbreak rfl (by omega) (by omega) (by omega) (by omega) (by omega) h

/-- Corresponding states behind the word, where no key can end any more. -/
inductive Crossed (s : Slot) (l : Nat) : Scanner → Scanner → Prop
  | mk (R : Scanner) (d : Cursor) (ts : Array Token) (hplace : Beyond s l R.place d)
      (htokens : ts = R.tokens.map s.put) (hcandidates : R.candidates = [none]) :
      Crossed s l R { R with place := d, tokens := ts }

/-- The word is nowhere ahead but perhaps here. -/
def Slot.Once (s : Slot) (c : Cursor) : Prop :=
  ∀ cs, cs <:+ c.rest → s.word <+: cs → cs = s.word ++ s.rest

theorem Slot.Once.leads (h : s.Once c) (hc : c.LeadsTo c') : s.Once c' :=
  fun cs hcs => h cs (List.IsSuffix.trans hcs hc.suffix)

theorem Slot.Once.passed (h : s.Once c) (hc : c.Passed s.size) : ¬ s.word <+: c.rest := by
  intro hword
  rw [Cursor.Passed, h c.rest List.suffix_rfl hword] at hc
  exact Nat.lt_irrefl _ hc

/-- Behind the comment both texts are at their ends, or both at a break. -/
theorem Beyond.ends (h : Beyond s l c d) : Clear s 0 c d ∨
    (∀ x ∈ c.rest.head?, x = '#') ∧ (∀ x ∈ d.rest.head?, x = '#') ∧
      (c.skipComment.rest = [] ∧ d.skipComment.rest = [] ∨
        c.skipComment.test 0 isBreak = true ∧ d.skipComment.test 0 isBreak = true ∧
          Clear s 0 c.skipComment.lineBreak.2 d.skipComment.lineBreak.2) := by
  cases h with
  | newLine h => exact .inl h
  | remark cs i j k k' hcs hi hj hij =>
    have hshift : ∃ es w, (Cursor.mk cs i l k).skipComment = ⟨es, i + w, l, k + w⟩ ∧
        (Cursor.mk cs j l k').skipComment = ⟨es, j + w, l, k' + w⟩ := by
      have hsees : (Cursor.mk cs j l k').sees 0 '#' = (Cursor.mk cs i l k).sees 0 '#' := rfl
      rw [Cursor.skipComment, Cursor.skipComment, hsees]
      split_ifs
      · exact ⟨_, _, rfl, rfl⟩
      · exact ⟨cs, 0, rfl, rfl⟩
    have hend := Cursor.atLineEnd_of_remark (c := ⟨cs, i, l, k⟩) hcs
    obtain ⟨es, w, hc, hd⟩ := hshift
    rw [hc] at hend
    rw [hc, hd]
    refine .inr ⟨hcs, hcs, hend.imp (fun h => ⟨h, h⟩) fun hbreak => ⟨hbreak, hbreak, ?_⟩⟩
    obtain ⟨x, hx, hxbreak⟩ := Cursor.test_zero_iff.1 hbreak
    have hcolumn (a k : Nat) : (Cursor.mk es a l k).lineBreak = (Cursor.mk es a l 0).lineBreak :=
      Cursor.lineBreak_column hx hxbreak
    rw [hcolumn (i + w), hcolumn (j + w)]
    exact (Clear.behind (s := s) es (i + w) (j + w) l 0 (by omega) (by omega) (by omega)).lineBreak.2

theorem Crossed.closeBlocks (h : Crossed s l R R') (column : Int) :
    (R'.closeBlocks column).tokens = (R.closeBlocks column).tokens.map s.put := by
  cases h with
  | mk d ts _ htokens =>
    subst htokens
    have hgo (indent : Int) (tokens : Array Token) (indents : List Int) :
        (Scanner.closeBlocks.go { R with place := d, tokens := R.tokens.map s.put } column indent
          (tokens.map s.put) indents).tokens =
        (Scanner.closeBlocks.go R column indent tokens indents).tokens.map s.put := by
      induction indents generalizing indent tokens with
      | nil => rfl
      | cons i is ih =>
        rw [Scanner.closeBlocks.go, Scanner.closeBlocks.go]
        split_ifs
        · have hpush := ih i (tokens.push .blockEnd)
          rwa [Array.map_push] at hpush
        · rfl
    rw [Scanner.closeBlocks, Scanner.closeBlocks]
    dsimp only
    split_ifs
    · exact hgo _ _ _
    · rfl

theorem Crossed.fetch (h : Crossed s l R R') (hfits : s.Fits) (honce : s.Once R.place)
    (hpassed : R.place.Passed s.size) (hR : R.fetch = .ok S) (hR' : R'.fetch = .ok S') :
    Twin s 0 S S' ∨ S.finished = true ∧ S'.finished = true ∧ S'.tokens = S.tokens.map s.put := by
  have htwin {R R' : Scanner} (h : Twin s 0 R R') (honce : s.Once R.place)
      (hpassed : R.place.Passed s.size) (hR : R.fetch = .ok S) (hR' : R'.fetch = .ok S') :
      Twin s 0 S S' := by
    obtain ⟨r, hr, htwin⟩ := (h.fetch (fun c d hc _ => (honce.leads hc).passed (hc.passed hpassed))
      hfits.solid S hR).resolve_left Cursor.not_passed_zero
    rw [hR'] at hr
    cases hr
    exact htwin
  have hclose := h.closeBlocks (-1)
  cases h with
  | mk d ts hplace htokens hks =>
    have hmk {c d : Cursor} (allowed : Bool) (h : Clear s 0 c d) :
        Twin s 0 { R with place := c, keyAllowed := allowed }
          { R with place := d, keyAllowed := allowed, tokens := ts } := by
      refine .mk { R with place := c, keyAllowed := allowed } d ts R.candidates (.clear h) htokens ?_
      rw [hks]
      exact .cons .none .nil
    -- columns differ on the word's line only: it ends the text, or both go on behind its break
    rcases hplace.ends with hclear | ⟨hc, hd, ⟨hend, hend'⟩ | ⟨hbreak, hbreak', hclear⟩⟩
    · exact .inl (htwin (hmk R.keyAllowed hclear) honce hpassed hR hR')
    · right
      rw [← Scanner.gapEnd_of_remark hc] at hend
      rw [← Scanner.gapEnd_of_remark (s := { R with place := d, tokens := ts }) hd] at hend'
      obtain ⟨hfinished, htokens₁⟩ := Scanner.tokens_of_end hend hR
      obtain ⟨hfinished', htokens₁'⟩ := Scanner.tokens_of_end hend' hR'
      refine ⟨hfinished, hfinished', ?_⟩
      rw [htokens₁, htokens₁', Array.map_push, hclose]
      rfl
    · left
      have hgap := Scanner.gapEnd_of_remark hc
      have hgap' := Scanner.gapEnd_of_remark (s := { R with place := d, tokens := ts }) hd
      rw [← hgap] at hbreak
      rw [← hgap'] at hbreak'
      rw [Scanner.fetch_of_break hbreak] at hR
      rw [Scanner.fetch_of_break hbreak'] at hR'
      have hleads : R.place.LeadsTo R.onNewLine.place := R.leadsTo_gapEnd.lineBreak
      refine htwin ?_ (honce.leads hleads) (hleads.passed hpassed) hR hR'
      rw [← hgap, ← hgap'] at hclear
      exact hmk (R.keyAllowed || R.flow == 0) hclear

/-- A step that reads the word as a scalar, which begins in the state `T`. -/
structure ReadsWord (s : Slot) (i k : Nat) (S T R : Scanner) : Prop where
  atNext : S.atNext = .ok T
  place : T.place = ⟨s.word ++ s.rest, i, T.place.line, k⟩
  index : i ≠ 0
  column : k ≠ 0
  flow : T.flow = 0
  reads : ∃ T₁ broken c n, T.saveCandidate = .ok T₁ ∧ s.rest.length < n ∧
    afterWord (T.indent + 1) n s.word
      ⟨s.rest, i + s.word.length, T.place.line, k + s.word.length⟩ = .ok (s.word, broken, c) ∧
    R = { T₁ with keyAllowed := broken, place := c }.push (.scalar s.word .plain)

/-- Where the word is a scalar for the first time, it has just been read. -/
theorem word_of_fetch (hfits : s.Fits) (honce : s.Once S.place)
    (hS : .scalar s.word .plain ∉ S.tokens) (h : S.fetch = .ok R)
    (hR : .scalar s.word .plain ∈ R.tokens) : ∃ T T₁ broken c, S.atNext = .ok T ∧
      T.place.rest = s.word ++ s.rest ∧ T.saveCandidate = .ok T₁ ∧
      plainText (T.flow != 0) (T.indent + 1) (T.place.rest.length + 1) [] Gap.empty T.place =
        .ok (s.word, broken, c) ∧
      R = { T₁ with keyAllowed := broken, place := c }.push (.scalar s.word .plain) := by
  obtain ⟨T, hnext, hreaches, htakes⟩ := Scanner.takes_of_fetch h
  have hT : .scalar s.word .plain ∉ T.tokens := fun hT => hS (hreaches.loud _ hT rfl)
  cases htakes with
  | quiet hextends => exact absurd (hextends.loud _ hR rfl) hT
  | atEnd hextends =>
    rcases Array.mem_push.1 hR with hR | hR
    · exact absurd (hextends.loud _ hR rfl) hT
    · cases hR
  | @plain T₁ text broken c hsave hread =>
    rcases Array.mem_push.1 hR with hR | hR
    · exact absurd ((Scanner.extends_saveCandidate hsave).loud _ hR rfl) hT
    · cases hR
      exact ⟨T, T₁, broken, c, hnext,
        honce _ hreaches.leads.suffix (plainText_solid hread hfits.solid), hsave, hread, rfl⟩

theorem readsWord_of_fetch (htwin : Twin s s.size S S') (hfits : s.Fits) (honce : s.Once S.place)
    (hS : .scalar s.word .plain ∉ S.tokens) (h : S.fetch = .ok R)
    (hR : .scalar s.word .plain ∈ R.tokens) : ∃ i k T, ReadsWord s i k S T R := by
  obtain ⟨T, T₁, broken, c, hnext, hahead, hsave, hread, rfl⟩ := word_of_fetch hfits honce hS h hR
  obtain ⟨T', -, htwin'⟩ := (htwin.atNext T hnext).resolve_left fun hpassed => by
    rw [Cursor.Passed, hahead] at hpassed
    exact Nat.lt_irrefl _ hpassed
  obtain ⟨i, k, hi, hk, hplace, -⟩ := htwin'.place.slot_of_rest hahead
  have hflow : T.flow = 0 := by
    by_contra hflow
    rw [bne_iff_ne.2 hflow, hplace] at hread
    exact plainText_ne_word hk hread rfl
  refine ⟨i, k, T, hnext, hplace, hi, hk, hflow, T₁, broken, c, (s.word ++ s.rest).length, hsave,
    ?_, ?_, rfl⟩
  · simp only [List.length_append, Slot.word, List.length_cons]
    omega
  · have hword := hfits.word
    rw [hflow, hplace] at hread
    refine (plainText_step hfits.solid (List.cons_ne_nil _ _) ?_ (fun x hx => (hword.last x hx).2)
      hfits.rest hk).symm.trans hread
    rintro x ⟨⟩
    decide

theorem put_word : s.put (.scalar s.word .plain) = .scalar s.value .plain :=
  congrArg (Token.scalar · .plain) (if_pos ⟨rfl, rfl⟩)

namespace ReadsWord
variable {i k : Nat} {T Q P : Scanner}

theorem reaches (h : ReadsWord s i k S T R) : Scanner.Reaches S T := Scanner.reaches_of_atNext h.atNext

/-- A key that can begin behind the word can begin on its line only. -/
theorem line_le (h : ReadsWord s i k S T R) (hsound : S.Sound) :
    ∀ k, some k ∈ R.candidates → k.line ≤ T.place.line := by
  obtain ⟨T₁, broken, c, n, hsave, -, -, rfl⟩ := h.reads
  intro k hk
  have hplace : T₁.place = T.place := by rw [Scanner.saveCandidate_frame hsave]
  have hbehind := ((Scanner.extends_saveCandidate hsave).sound (h.reaches.sound hsound)).behind k hk
  rw [hplace] at hbehind
  omega

theorem finished_eq (h : ReadsWord s i k S T R) : R.finished = S.finished := by
  obtain ⟨T₁, broken, c, n, hsave, -, -, rfl⟩ := h.reads
  exact (Scanner.extends_saveCandidate hsave).finished.trans h.reaches.finished

theorem tokens_eq (h : ReadsWord s i k S T R) : R.tokens = T.tokens.push (.scalar s.word .plain) := by
  obtain ⟨T₁, broken, c, n, hsave, -, -, rfl⟩ := h.reads
  rw [Scanner.saveCandidate_frame hsave]
  rfl

theorem flow_eq (h : ReadsWord s i k S T R) : R.flow = 0 := by
  obtain ⟨T₁, broken, c, n, hsave, -, -, rfl⟩ := h.reads
  rw [Scanner.saveCandidate_frame hsave]
  exact h.flow

theorem beyond (h : ReadsWord s i k S T R) (hfits : s.Fits) : ∃ d, Beyond s T.place.line R.place d := by
  obtain ⟨T₁, broken, c, n, hsave, hn, hread, rfl⟩ := h.reads
  have := h.index
  have := h.column
  obtain ⟨d, -, hbeyond⟩ := afterWord_beyond (v := []) (m := n) hfits (i + s.value.length)
    (k + s.word.length) (by omega) (by omega) (by omega) (by omega) (by omega) hn hn hread
  exact ⟨d, hbeyond⟩

end ReadsWord

theorem Beyond.ahead (h : Beyond s l c d) :
    ((∀ x ∈ c.rest.head?, x = '#') ∧ ∀ x ∈ d.rest.head?, x = '#') ∨ l < c.line ∧ l < d.line := by
  cases h with
  | remark cs i j k k' hcs => exact .inl ⟨hcs, hcs⟩
  | newLine hclear hl => exact .inr ⟨hl, hclear.line_eq ▸ hl⟩

namespace ReadsWord
variable {i k : Nat} {T Q P : Scanner}

/-- What comes behind the word decides that it was no key. -/
theorem next (h : ReadsWord s i k S T R) (hfits : s.Fits) (hS : S.Sound) (hR : R.Sound)
    (hnext : R.fetch = .ok Q) : (∀ k, some k ∈ R.candidates → k.required = false) ∧
      { R with candidates := [none] }.fetch = .ok Q := by
  obtain ⟨d, hbeyond⟩ := h.beyond hfits
  refine Scanner.fetch_of_idle hR h.flow_eq ?_ hnext
  refine hbeyond.ahead.imp And.left fun hline k hk => ?_
  have := h.line_le hS k hk
  omega

/-- Behind the colon of its key the word stands further in than the block around it. -/
theorem indent_lt (h : ReadsWord s i k S T R) (hfits : s.Fits) (hS : S.Sound) (hR : R.Sound)
    (hnext : R.fetch = .ok Q) (hback : T.tokens.back? = some .value) (hP : P.Sound)
    (hprevious : P.fetch = .ok S) : T.indent < T.place.column := by
  have hreaches := h.reaches
  have hflow : S.flow = 0 := hreaches.flow.symm.trans h.flow
  have hle := hreaches.indent hS hflow
  cases hallowed : T.keyAllowed with
  | true =>
    -- at the indentation of the block the word would have to be a key
    by_contra hlt
    have heq : T.indent = T.place.column := by omega
    obtain ⟨T₁, broken, c, n, hsave, -, -, hR'⟩ := h.reads
    have hrequired := (h.next hfits hS hR hnext).1
    unfold Scanner.saveCandidate at hsave
    rw [if_pos hallowed] at hsave
    obtain ⟨T₂, -, hsave⟩ := bind_eq_ok_iff.1 hsave
    cases hsave
    rw [hR'] at hrequired
    have := hrequired _ List.mem_cons_self
    simp [h.flow, heq] at this
  | false =>
    -- no key can begin on the line of the colon, which stands behind one that is further in
    obtain ⟨hkey, hline⟩ := Scanner.skipGap_line hflow (hreaches.keyAllowed.symm.trans hallowed)
    obtain ⟨htokens, hindent⟩ := hreaches.back _ hback nofun
    rw [← hreaches.place] at hline
    have hrest : S.place.rest ≠ [] := by
      intro hnil
      have hsuffix := hreaches.leads.suffix
      rw [hnil, h.place, List.suffix_nil] at hsuffix
      cases hsuffix
    have hlt := Scanner.indent_lt_of_value hP hprevious (htokens ▸ hback) hkey hflow hrest
    have := hreaches.leads.order
    omega

end ReadsWord

theorem Slot.Fits.takeNext {T : Scanner} {i k : Nat} (hfits : s.Fits) (hk : k ≠ 0) (hflow : T.flow = 0)
    (hplace : T.place = ⟨s.value ++ s.rest, i, l, k⟩) : T.takeNext = T.takePlain := by
  have hx : T.place.peek = some s.first := by rw [hplace]; rfl
  have hcolumn : T.place.column ≠ 0 := by rw [hplace]; exact hk
  rcases hfits.begins with hletter | ⟨hsign, y, hy, hsolid⟩
  · exact Scanner.takeNext_of_letter hx hcolumn s.isBlank_first hletter
  · refine Scanner.takeNext_of_sign hx hcolumn hsign ?_ hflow
    have hpeek : T.place.next.peek = some y := by
      rw [hplace]
      show (s.others ++ s.rest).head? = some y
      rw [List.head?_append, Option.mem_def.1 hy]
      rfl
    rw [Cursor.gapAt_succ, Cursor.gapAt_zero_of_peek hpeek]
    exact isSolid_eq_true.1 hsolid

/-- The value is read where the word is. -/
theorem Twin.cross {i k : Nat} {T : Scanner} (h : Twin s s.size S S') (hfits : s.Fits)
    (hword : ReadsWord s i k S T R) (hindent : T.indent < T.place.column)
    (hR' : S'.fetch = .ok R') : ∃ d ks,
      R' = { R with place := d, tokens := R.tokens.map s.put, candidates := ks } ∧
        Beyond s T.place.line R.place d ∧
        List.Forall₂ (Option.Rel (Shifted s s.size)) R.candidates ks := by
  have hi := hword.index
  have hk := hword.column
  have hcolumn : T.place.column = k := by rw [hword.place]
  obtain ⟨T', hT', htwin⟩ := (h.atNext T hword.atNext).resolve_left fun hpassed => by
    rw [Cursor.Passed, hword.place] at hpassed
    exact Nat.lt_irrefl _ hpassed
  have hplace' : T'.place = ⟨s.value ++ s.rest, i, T.place.line, k⟩ := by
    obtain ⟨i', k', -, -, hT, hT'⟩ := htwin.place.slot_of_rest (by rw [hword.place])
    obtain ⟨-, rfl, -, rfl⟩ := Cursor.mk.inj (hword.place.symm.trans hT)
    exact hT'
  obtain ⟨T₁, broken, c, n, hsave, hn, hread, rfl⟩ := hword.reads
  rw [Scanner.fetch_eq_atNext, hT'] at hR'
  have hplain := (hfits.takeNext hk (htwin.flow_eq.trans hword.flow) hplace').symm.trans hR'
  obtain ⟨T₁', hsave', hplain⟩ := bind_eq_ok_iff.1 hplain
  obtain ⟨⟨text, broken', d⟩, hread', hplain⟩ := bind_eq_ok_iff.1 hplain
  obtain ⟨T₂, hT₂, htwin₁⟩ := htwin.saveCandidate T₁ hsave
  obtain rfl : T₁' = T₂ := Except.ok.inj (hsave'.symm.trans hT₂)
  have hframe := Scanner.saveCandidate_frame hsave'
  have hflow' : T₁'.flow = 0 := by rw [hframe, htwin.flow_eq, hword.flow]
  have hindent' : T₁'.indent = T.indent := by rw [hframe, htwin.indent_eq]
  have hplace₁ : T₁'.place = ⟨s.value ++ s.rest, i, T.place.line, k⟩ := by rw [hframe, hplace']
  rw [hflow', hindent', hplace₁] at hread'
  -- the value is one line of text further in than its block, so it is read to its end
  obtain ⟨m, hm, hvalue⟩ : ∃ m, s.rest.length < m ∧
      plainText false (T.indent + 1) ((s.value ++ s.rest).length + 1) [] Gap.empty
        ⟨s.value ++ s.rest, i, T.place.line, k⟩ =
          afterWord (T.indent + 1) m s.value
            ⟨s.rest, i + s.value.length, T.place.line, k + s.value.length⟩ :=
    plainText_value hfits.value hfits.rest (Nat.lt_succ_self _) hk (by omega)
  obtain ⟨e, he, hbeyond⟩ := afterWord_beyond (v := s.value) (m := m) hfits
    (i + s.value.length) (k + s.value.length) (by omega) (by omega) (by omega) (by omega) (by omega)
    hn hm hread
  cases (hread'.symm.trans hvalue).trans he
  cases hplain
  refine ⟨_, T₁'.candidates, ?_, hbeyond, htwin₁.candidates⟩
  cases htwin₁ with
  | mk _ ts ks _ htokens =>
    rw [Scanner.push, Scanner.push, Array.map_push, put_word, htokens]

end TokenKeeper.Yaml
