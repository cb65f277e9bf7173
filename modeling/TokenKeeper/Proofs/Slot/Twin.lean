import Mathlib.Data.List.Forall2
import Mathlib.Data.Option.Basic
import TokenKeeper.Proofs.Slot.Scanner
import TokenKeeper.Proofs.Slot.Plain

/-!
# Scanning two texts that differ in one word

States that correspond (`Twin`) stay so with every token, as long as the word is not passed
(`Scanner.fetch_follows`): the same tokens are added to both, and they are not the word.
-/

namespace TokenKeeper.Yaml

variable {s : Slot} {b n m : Nat} {c c' d : Cursor} {S S' S₁ S₁' : Scanner} {t : Token}
  {k k' : Candidate}

namespace Slot

/-- The text of a scalar, or the value where that is the word by itself. -/
def fill (s : Slot) (text : List Char) (style : Style) : List Char :=
  if style = .plain ∧ text = s.word then s.value else text

/-- The value in place of the word where this is a plain scalar. -/
def put (s : Slot) : Token → Token
  | .scalar text style => .scalar (s.fill text style) style
  | t => t

/-- How many characters come before corresponding places. -/
def Shift (s : Slot) (b i j : Nat) : Prop :=
  (b = 0 ∧ i + s.value.length = j + s.word.length) ∨ (b = s.size ∧ j = i)

theorem put_of_ne (h : t ≠ .scalar s.word .plain) : s.put t = t := by
  unfold put
  split
  next text style =>
    rw [fill, if_neg]
    rintro ⟨rfl, rfl⟩
    exact h rfl
  · rfl

theorem put_of_quiet (h : t.isQuiet = true) : s.put t = t := by
  refine put_of_ne ?_
  rintro rfl
  cases h

end Slot

/-- Corresponding places where a key may have begun. -/
structure Shifted (s : Slot) (b : Nat) (k k' : Candidate) : Prop where
  same : k' = { k with index := k'.index }
  index : s.Shift b k.index k'.index

theorem Shifted.required_eq (h : Shifted s b k k') : k'.required = k.required := by rw [h.same]

theorem line_le_of_shifted {ks ks' : List (Option Candidate)} {l : Nat}
    (h : List.Forall₂ (Option.Rel (Shifted s b)) ks ks') (hks : ∀ k, some k ∈ ks → k.line ≤ l) :
    ∀ k, some k ∈ ks' → k.line ≤ l := by
  induction h with
  | nil => exact hks
  | cons ho _ ih =>
    intro k hk
    rcases List.mem_cons.1 hk with rfl | hk
    · cases ho with
      | @some k₀ _ hshifted =>
        rw [hshifted.same]
        exact hks k₀ List.mem_cons_self
    · exact ih (fun k hk => hks k (List.mem_cons_of_mem _ hk)) k hk

/-- Corresponding states: the tokens are the same but for the word. -/
inductive Twin (s : Slot) (b : Nat) : Scanner → Scanner → Prop
  | mk (S : Scanner) (d : Cursor) (ts : Array Token) (ks : List (Option Candidate))
      (hplace : Near s b S.place d) (htokens : ts = S.tokens.map s.put)
      (hcandidates : List.Forall₂ (Option.Rel (Shifted s b)) S.candidates ks) :
      Twin s b S { S with place := d, tokens := ts, candidates := ks }

/-- Without moving, the second state does what the first one does. -/
def Pairs (s : Slot) (b : Nat) (u v : Except Fault Scanner) : Prop :=
  ∀ r, u = .ok r → ∃ r', v = .ok r' ∧ Twin s b r r'

/-- The second state does what the first one does, unless the word has been passed. -/
def Follows (s : Slot) (b : Nat) (u v : Except Fault Scanner) : Prop :=
  ∀ r, u = .ok r → r.place.Passed b ∨ ∃ r', v = .ok r' ∧ Twin s b r r'

theorem Follows.ok (h : Twin s b S S') : Follows s b (.ok S) (.ok S') := by
  rintro _ ⟨⟩
  exact .inr ⟨_, rfl, h⟩

theorem Follows.error (e : Fault) (v : Except Fault Scanner) : Follows s b (.error e) v :=
  fun _ h => nomatch h

theorem Follows.ite {u v u' v' : Except Fault Scanner} {q : Prop} [Decidable q]
    (h : q → Follows s b u v) (h' : ¬ q → Follows s b u' v') :
    Follows s b (if q then u else u') (if q then v else v') := by
  split
  next hq => exact h hq
  next hq => exact h' hq

theorem Pairs.bind {u v : Except Fault Scanner} {f f' : Scanner → Except Fault Scanner}
    (h : Pairs s b u v)
    (hf : ∀ r r', u = .ok r → v = .ok r' → Twin s b r r' → Follows s b (f r) (f' r')) :
    Follows s b (u.bind f) (v.bind f') := by
  intro r₁ hr₁
  obtain ⟨r, hr, hr₁⟩ := bind_eq_ok_iff.1 hr₁
  obtain ⟨r', hr', htwin⟩ := h r hr
  rw [hr']
  exact hf r r' hr hr' htwin r₁ hr₁

namespace Twin

theorem place (h : Twin s b S S') : Near s b S.place S'.place := by
  cases h with
  | mk _ _ _ hplace => exact hplace

theorem tokens_eq (h : Twin s b S S') : S'.tokens = S.tokens.map s.put := by
  cases h with
  | mk _ _ _ _ htokens => exact htokens

theorem size_eq (h : Twin s b S S') : S'.tokens.size = S.tokens.size := by
  rw [h.tokens_eq, Array.size_map]

theorem flow_eq (h : Twin s b S S') : S'.flow = S.flow := by cases h; rfl

theorem indent_eq (h : Twin s b S S') : S'.indent = S.indent := by cases h; rfl

theorem keyAllowed_eq (h : Twin s b S S') : S'.keyAllowed = S.keyAllowed := by cases h; rfl

theorem finished_eq (h : Twin s b S S') : S'.finished = S.finished := by cases h; rfl

theorem candidates (h : Twin s b S S') :
    List.Forall₂ (Option.Rel (Shifted s b)) S.candidates S'.candidates := by
  cases h with
  | mk _ _ _ _ _ hks => exact hks

theorem isStale_eq (h : Twin s b S S') (hk : Shifted s b k k') :
    S'.isStale k' = S.isStale k := by
  have hsize : s.size ≠ 0 := Nat.succ_ne_zero _
  have hplace := h.place.index_eq
  have hindex := hk.index
  rw [Slot.Shift] at hindex
  have hline : k'.line = k.line := by rw [hk.same]
  simp only [Scanner.isStale, h.place.line_eq, hline]
  congr 1
  rw [decide_eq_decide]
  omega

theorem move (h : Twin s b S S') (hplace : Near s b c d) (allowed : Bool) :
    Twin s b { S with place := c, keyAllowed := allowed }
      { S' with place := d, keyAllowed := allowed } := by
  cases h with
  | mk _ ts ks _ htokens hks =>
    exact .mk { S with place := c, keyAllowed := allowed } d ts ks hplace htokens hks

theorem moveTo (h : Twin s b S S') (hplace : Near s b c d) :
    Twin s b { S with place := c } { S' with place := d } := by
  cases h with
  | mk _ ts ks _ htokens hks => exact .mk { S with place := c } d ts ks hplace htokens hks

theorem push (h : Twin s b S S') (ht : s.put t = t) : Twin s b (S.push t) (S'.push t) := by
  cases h with
  | mk d ts ks hplace htokens hks =>
    exact .mk (S.push t) d (ts.push t) ks hplace
      (by rw [htokens, Scanner.push, Array.map_push, ht]) hks

theorem insertAt (h : Twin s b S S') (ht : s.put t = t) (n : Nat) :
    Twin s b (S.insertAt n t) (S'.insertAt n t) := by
  cases h with
  | mk d ts ks hplace htokens hks =>
    refine .mk (S.insertAt n t) d _ ks hplace ?_ hks
    simp only [Scanner.insertAt, htokens, Array.map_append, Array.map_push, Array.map_extract,
      Array.size_map, ht]

theorem openBlock (h : Twin s b S S') (ht : s.put t = t) (column n : Nat) :
    Twin s b (S.openBlock column n t) (S'.openBlock column n t) := by
  cases h with
  | mk d ts ks hplace htokens hks =>
    rw [Scanner.openBlock, Scanner.openBlock]
    dsimp only
    split_ifs
    · exact insertAt (.mk { S with indents := S.indent :: S.indents, indent := column } d ts ks
        hplace htokens hks) ht n
    · exact .mk S d ts ks hplace htokens hks

theorem closeBlocks (h : Twin s b S S') (column : Int) :
    Twin s b (S.closeBlocks column) (S'.closeBlocks column) := by
  cases h with
  | mk d ts₀ ks hplace htokens hks =>
    have hgo (indent : Int) (tokens ts : Array Token) (indents : List Int)
        (htokens : ts = tokens.map s.put) :
        Twin s b (Scanner.closeBlocks.go S column indent tokens indents)
          (Scanner.closeBlocks.go { S with place := d, tokens := ts₀, candidates := ks } column
            indent ts indents) := by
      induction indents generalizing indent tokens ts with
      | nil =>
        exact .mk { S with indent := indent, indents := [], tokens := tokens } d ts ks hplace
          htokens hks
      | cons i is ih =>
        rw [Scanner.closeBlocks.go, Scanner.closeBlocks.go]
        split_ifs
        · refine ih i _ _ ?_
          rw [htokens, Array.map_push]
          rfl
        · exact .mk { S with indent := indent, indents := i :: is, tokens := tokens } d ts ks
            hplace htokens hks
    rw [Scanner.closeBlocks, Scanner.closeBlocks]
    dsimp only
    split_ifs
    · exact hgo _ _ _ _ htokens
    · exact .mk S d ts₀ ks hplace htokens hks

theorem dropStale (h : Twin s b S S') : Pairs s b S.dropStale S'.dropStale := by
  have hany : (S'.candidates.any fun k => k.any fun k => S'.isStale k && k.required) =
      S.candidates.any fun k => k.any fun k => S.isStale k && k.required := by
    have hks := h.candidates
    generalize S.candidates = l, S'.candidates = l' at hks ⊢
    induction hks with
    | nil => rfl
    | cons ho _ ih =>
      rw [List.any_cons, List.any_cons, ih]
      congr 1
      cases ho with
      | none => rfl
      | some hk => simp only [Option.any_some, h.isStale_eq hk, hk.required_eq]
  have hkept : List.Forall₂ (Option.Rel (Shifted s b))
      (S.candidates.map fun k => k.filter fun k => !S.isStale k)
      (S'.candidates.map fun k => k.filter fun k => !S'.isStale k) := by
    have hks := h.candidates
    generalize S.candidates = l, S'.candidates = l' at hks ⊢
    induction hks with
    | nil => exact .nil
    | cons ho _ ih =>
      refine .cons ?_ ih
      cases ho with
      | none => exact .none
      | some hk =>
        simp only [Option.filter, h.isStale_eq hk]
        split_ifs
        · exact .some hk
        · exact .none
  simp only [Scanner.dropStale, hany]
  intro r hr
  split_ifs at hr ⊢
  cases hr
  cases h with
  | mk d ts ks hplace htokens hks =>
    refine ⟨_, rfl, .mk { S with candidates := _ } d ts _ hplace htokens hkept⟩

theorem dropCandidate (h : Twin s b S S') : Pairs s b S.dropCandidate S'.dropCandidate := by
  cases h with
  | mk d ts ks hplace htokens hks =>
    unfold Scanner.dropCandidate
    dsimp only
    generalize hl : S.candidates = l at hks
    cases hks with
    | nil =>
      rintro _ ⟨⟩
      exact ⟨_, rfl, .mk S d ts [] hplace htokens (by rw [hl]; exact .nil)⟩
    | cons ho hrest =>
      cases ho with
      | none =>
        rintro _ ⟨⟩
        exact ⟨_, rfl, .mk S d ts _ hplace htokens (by rw [hl]; exact .cons .none hrest)⟩
      | @some k k' hk =>
        intro r hr
        simp only [hk.required_eq] at hr ⊢
        split_ifs at hr ⊢
        cases hr
        exact ⟨_, rfl, .mk { S with candidates := none :: _ } d ts _ hplace htokens
          (.cons .none hrest)⟩

theorem saveCandidate (h : Twin s b S S') : Pairs s b S.saveCandidate S'.saveCandidate := by
  have hdrop := h.dropCandidate
  intro r hr
  cases h with
  | mk d ts ks hplace htokens hks =>
    unfold Scanner.saveCandidate at hr ⊢
    dsimp only at hr ⊢
    split_ifs at hr ⊢
    · obtain ⟨r₁, hr₁, hr⟩ := bind_eq_ok_iff.1 hr
      obtain ⟨r₁', hr₁', htwin⟩ := hdrop r₁ hr₁
      cases hr
      cases htwin with
      | mk d ts ks hplace' htokens hks =>
        refine ⟨_, bind_eq_ok_iff.2 ⟨_, hr₁', rfl⟩, .mk { r₁ with candidates := _ } d ts _ hplace'
          htokens (.cons (.some ⟨?_, ?_⟩) (List.forall₂_drop 1 hks))⟩
        · simp only [htokens, Array.size_map, hplace'.line_eq, hplace'.column_eq, hplace.column_eq]
        · exact hplace'.index_eq
    · cases hr
      exact ⟨_, rfl, .mk S d ts ks hplace htokens hks⟩

/-! ## Tokens of a fixed width -/

theorem take (h : Twin s b S S') (ht : s.put t = t)
    (hplace : Near s b (S.place.skip n) (S'.place.skip n)) : Twin s b (S.take n t) (S'.take n t) :=
  push
    (by
      cases h with
      | mk d ts ks _ htokens hks =>
        exact .mk { S with place := S.place.skip n } (d.skip n) ts ks hplace htokens hks) ht

theorem takeOpening (h : Twin s b S S') (ht : s.put t = t)
    (hnext : Near s b S.place.next S'.place.next) :
    Follows s b (S.takeOpening t) (S'.takeOpening t) := by
  refine h.saveCandidate.bind fun r r' hr hr' htwin => .ok (take ?_ ht ?_)
  · cases htwin with
    | mk d ts ks hplace htokens hks =>
      exact .mk { r with flow := r.flow + 1, candidates := none :: r.candidates, keyAllowed := true }
        d ts (none :: ks) hplace htokens (.cons .none hks)
  · rw [Scanner.saveCandidate_frame hr, Scanner.saveCandidate_frame hr']
    exact hnext

theorem takeClosing (h : Twin s b S S') (ht : s.put t = t)
    (hnext : Near s b S.place.next S'.place.next) :
    Follows s b (S.takeClosing t) (S'.takeClosing t) := by
  refine h.dropCandidate.bind fun r r' hr hr' htwin => .ok (take ?_ ht ?_)
  · cases htwin with
    | mk d ts ks hplace htokens hks =>
      dsimp only
      split_ifs
      · exact .mk { r with keyAllowed := false } d ts ks hplace htokens hks
      · exact .mk { r with flow := r.flow - 1, candidates := r.candidates.drop 1, keyAllowed := false }
          d ts (ks.drop 1) hplace htokens (List.forall₂_drop 1 hks)
  · rw [Scanner.dropCandidate_frame hr, Scanner.dropCandidate_frame hr']
    dsimp only
    split_ifs <;> exact hnext

theorem allow (h : Twin s b S S') (allowed : Bool) :
    Twin s b { S with keyAllowed := allowed } { S' with keyAllowed := allowed } :=
  h.move h.place allowed

theorem allowKeys (h : Twin s b S S') :
    Twin s b { S with keyAllowed := S.flow == 0 } { S' with keyAllowed := S'.flow == 0 } := by
  cases h with
  | mk d ts ks hplace htokens hks =>
    exact .mk { S with keyAllowed := S.flow == 0 } d ts ks hplace htokens hks

theorem replace {ks ks' : List (Option Candidate)} (h : Twin s b S S')
    (hks : List.Forall₂ (Option.Rel (Shifted s b)) ks ks') (allowed : Bool) :
    Twin s b { S with candidates := ks, keyAllowed := allowed }
      { S' with candidates := ks', keyAllowed := allowed } := by
  cases h with
  | mk d ts _ hplace htokens =>
    exact .mk { S with candidates := ks, keyAllowed := allowed } d ts ks' hplace htokens hks

theorem finish (h : Twin s b S S') :
    Twin s b { S with finished := true } { S' with finished := true } := by
  cases h with
  | mk d ts ks hplace htokens hks =>
    exact .mk { S with finished := true } d ts ks hplace htokens hks

theorem takeFlowEntry (h : Twin s b S S') (hnext : Near s b S.place.next S'.place.next) :
    Follows s b S.takeFlowEntry S'.takeFlowEntry := by
  refine h.dropCandidate.bind fun r r' hr hr' htwin => .ok ((htwin.allow true).take rfl ?_)
  rw [Scanner.dropCandidate_frame hr, Scanner.dropCandidate_frame hr']
  exact hnext

theorem takeBlockEntry (h : Twin s b S S') (hnext : Near s b S.place.next S'.place.next) :
    Follows s b S.takeBlockEntry S'.takeBlockEntry := by
  unfold Scanner.takeBlockEntry
  rw [h.flow_eq, h.keyAllowed_eq, h.place.column_eq, h.size_eq]
  refine .ite (fun _ => .error _ _) fun _ => ?_
  refine (h.openBlock rfl _ _).dropCandidate.bind fun r r' hr hr' htwin =>
    .ok ((htwin.allow true).take rfl ?_)
  rw [Scanner.dropCandidate_frame hr, Scanner.dropCandidate_frame hr']
  show Near s b (Scanner.place _).next (Scanner.place _).next
  rw [Scanner.openBlock_place, Scanner.openBlock_place]
  exact hnext

theorem takeKey (h : Twin s b S S') (hnext : Near s b S.place.next S'.place.next) :
    Follows s b S.takeKey S'.takeKey := by
  unfold Scanner.takeKey
  rw [h.flow_eq, h.keyAllowed_eq, h.place.column_eq, h.size_eq]
  refine .ite (fun _ => .error _ _) fun _ => ?_
  refine (h.openBlock rfl _ _).dropCandidate.bind fun r r' hr hr' htwin => .ok ?_
  refine htwin.allowKeys.take (t := .key) rfl ?_
  rw [Scanner.dropCandidate_frame hr, Scanner.dropCandidate_frame hr']
  show Near s b (Scanner.place _).next (Scanner.place _).next
  rw [Scanner.openBlock_place, Scanner.openBlock_place]
  exact hnext

theorem takeValue (h : Twin s b S S') (hnext : Near s b S.place.next S'.place.next) :
    Follows s b S.takeValue S'.takeValue := by
  have hks := h.candidates
  unfold Scanner.takeValue
  generalize hl : S.candidates = l, hl' : S'.candidates = l' at hks
  have hbare : Follows s b
      (if S.flow == 0 && !S.keyAllowed then (throw .key : Except Fault PUnit) >>= fun _ =>
        .ok ({ S.openBlock S.place.column S.tokens.size .blockMapping with
          keyAllowed := (S.openBlock S.place.column S.tokens.size .blockMapping).flow == 0 }.take 1
            .value)
      else .ok ({ S.openBlock S.place.column S.tokens.size .blockMapping with
        keyAllowed := (S.openBlock S.place.column S.tokens.size .blockMapping).flow == 0 }.take 1
          .value))
      (if S'.flow == 0 && !S'.keyAllowed then (throw .key : Except Fault PUnit) >>= fun _ =>
        .ok ({ S'.openBlock S'.place.column S'.tokens.size .blockMapping with
          keyAllowed := (S'.openBlock S'.place.column S'.tokens.size .blockMapping).flow == 0 }.take 1
            .value)
      else .ok ({ S'.openBlock S'.place.column S'.tokens.size .blockMapping with
        keyAllowed := (S'.openBlock S'.place.column S'.tokens.size .blockMapping).flow == 0 }.take 1
          .value)) := by
    rw [h.flow_eq, h.keyAllowed_eq, h.place.column_eq, h.size_eq]
    refine .ite (fun _ => .error _ _) fun _ => .ok ?_
    have hopen := h.openBlock (t := .blockMapping) rfl S.place.column S.tokens.size
    refine hopen.allowKeys.take (t := .value) rfl ?_
    show Near s b (Scanner.place _).next (Scanner.place _).next
    rw [Scanner.openBlock_place, Scanner.openBlock_place]
    exact hnext
  cases hks with
  | nil => exact hbare
  | cons ho hrest =>
    cases ho with
    | none => exact hbare
    | @some k k' hk =>
      dsimp only
      have htoken : k'.token = k.token := by rw [hk.same]
      have hcolumn : k'.column = k.column := by rw [hk.same]
      rw [htoken, hcolumn]
      refine .ok ?_
      have hopen := (h.insertAt (t := .key) rfl k.token).openBlock (t := .blockMapping) rfl k.column
        k.token
      refine (hopen.replace (.cons .none hrest) false).take (t := .value) rfl ?_
      show Near s b (Scanner.place _).next (Scanner.place _).next
      rw [Scanner.openBlock_place, Scanner.openBlock_place]
      exact hnext

/-! ## Tokens that are read -/

theorem takeNode {read read' : Cursor → Except Fault (Token × Cursor)} (h : Twin s b S S')
    (hread : Tracks (Near s) b (read S.place) (read' S'.place))
    (hput : ∀ t c, read S.place = .ok (t, c) → s.put t = t) :
    Follows s b (S.takeNode read) (S'.takeNode read') := by
  refine h.saveCandidate.bind fun r r' hr hr' htwin => ?_
  have hplace : r.place = S.place := by rw [Scanner.saveCandidate_frame hr]
  have hplace' : r'.place = S'.place := by rw [Scanner.saveCandidate_frame hr']
  intro r₁ hr₁
  obtain ⟨⟨t, c⟩, ht, hr₁⟩ := bind_eq_ok_iff.1 hr₁
  cases hr₁
  rw [hplace] at ht
  rcases hread (t, c) ht with hpassed | ⟨d, hd, hnear⟩
  · exact .inl hpassed
  · refine .inr ⟨_, bind_eq_ok_iff.2 ⟨_, hplace' ▸ hd, rfl⟩, ?_⟩
    exact (htwin.move hnear false).push (hput t c ht)

theorem takeName {f : List Char → Token} (h : Twin s b S S')
    (hnext : Clear s b S.place.next S'.place.next) (hput : ∀ name, s.put (f name) = f name) :
    Follows s b
      (S.takeNode fun c => (readAnchor c.next).map fun (name, c) => (f name, c))
      (S'.takeNode fun c => (readAnchor c.next).map fun (name, c) => (f name, c)) := by
  refine h.takeNode ?_ ?_
  · intro r hr
    obtain ⟨⟨name, c⟩, hname, rfl⟩ := map_eq_ok_iff.1 hr
    refine (readAnchor_tracks hnext (name, c) hname).imp_right fun ⟨d, hd, hclear⟩ => ?_
    exact ⟨d, map_eq_ok_iff.2 ⟨_, hd, rfl⟩, .clear hclear⟩
  · intro t c ht
    obtain ⟨⟨name, c⟩, -, ht⟩ := map_eq_ok_iff.1 ht
    cases ht
    exact hput name

theorem takeQuoted {single : Bool} (h : Twin s b S S')
    (hnext : Near s b S.place.next S'.place.next) :
    Follows s b (S.takeQuoted single) (S'.takeQuoted single) := by
  refine h.takeNode ?_ ?_
  · have hle := S.place.leadsTo_next.length_le
    have hle' := S'.place.leadsTo_next.length_le
    exact .bind (quotedText_tracks hnext (by omega) (by omega))
      (fun _ _ h => by cases h; exact .refl _) fun _ _ _ hnear => .ok hnear rfl
  · intro t c ht
    obtain ⟨⟨text, c⟩, -, ht⟩ := bind_eq_ok_iff.1 ht
    cases ht
    cases single <;> rfl

theorem takeBlockScalar {literal : Bool} (h : Twin s b S S')
    (hnext : Clear s b S.place.next S'.place.next) :
    Follows s b (S.takeBlockScalar literal) (S'.takeBlockScalar literal) := by
  refine h.dropCandidate.bind fun r r' hr hr' htwin => ?_
  have hplace : r.place = S.place := by rw [Scanner.dropCandidate_frame hr]
  have hplace' : r'.place = S'.place := by rw [Scanner.dropCandidate_frame hr']
  intro r₁ hr₁
  obtain ⟨⟨text, c⟩, ht, hr₁⟩ := bind_eq_ok_iff.1 hr₁
  cases hr₁
  rw [hplace] at ht
  rcases blockText_tracks hnext (text, c) ht with hpassed | ⟨d, hd, hnear⟩
  · exact .inl hpassed
  · refine .inr ⟨_, bind_eq_ok_iff.2 ⟨_, by rw [hplace', htwin.indent_eq]; exact hd, rfl⟩, ?_⟩
    exact (htwin.move hnear true).push (by cases literal <;> rfl)

/-- A plain scalar that is not the word. -/
theorem takePlain (h : Twin s b S S') (hword : ∀ text broken c,
    plainText (S.flow != 0) (S.indent + 1) (S.place.rest.length + 1) [] Gap.empty S.place =
      .ok (text, broken, c) → text ≠ s.word) : Follows s b S.takePlain S'.takePlain := by
  refine h.saveCandidate.bind fun r r' hr hr' htwin => ?_
  intro r₁ hr₁
  obtain ⟨⟨text, broken, c⟩, ht, hr₁⟩ := bind_eq_ok_iff.1 hr₁
  cases hr₁
  have hne : text ≠ s.word := by
    rw [Scanner.saveCandidate_frame hr] at ht
    exact hword text broken c ht
  rcases plainText_tracks htwin.place (Nat.lt_succ_self _) (Nat.lt_succ_self _) _ ht with
    hpassed | ⟨d, hd, hnear⟩
  · exact .inl hpassed
  · refine .inr ⟨_, bind_eq_ok_iff.2 ⟨_, by rw [htwin.flow_eq, htwin.indent_eq]; exact hd, rfl⟩, ?_⟩
    exact (htwin.move hnear broken).push (Slot.put_of_ne (by simpa using hne))

/-! ## The start of a line outside all blocks -/

theorem outermost (h : Twin s b S S') : Pairs s b S.outermost S'.outermost := by
  intro r hr
  obtain ⟨r₁, hr₁, hr⟩ := bind_eq_ok_iff.1 hr
  cases hr
  obtain ⟨r₁', hr₁', htwin⟩ := (h.closeBlocks (-1)).dropCandidate r₁ hr₁
  exact ⟨_, bind_eq_ok_iff.2 ⟨_, hr₁', rfl⟩, htwin.allow false⟩

theorem takeEnd (h : Twin s b S S') : Follows s b S.takeEnd S'.takeEnd := by
  exact h.outermost.bind fun r r' _ _ htwin => .ok (htwin.push (t := .streamEnd) rfl).finish

theorem takeDirective (h : Twin s b S S') (hclear : Clear s b S.place S'.place)
    (hx : S.place.peek = some '%') : Follows s b
      (do
        let r ← S.outermost
        let (t, c) ← readDirective r.place
        return { r with place := c }.push t)
      (do
        let r ← S'.outermost
        let (t, c) ← readDirective r.place
        return { r with place := c }.push t) := by
  refine h.outermost.bind fun r r' hr hr' htwin => ?_
  rw [Scanner.outermost_place hr, Scanner.outermost_place hr']
  intro r₁ hr₁
  obtain ⟨⟨t, c⟩, ht, hr₁⟩ := bind_eq_ok_iff.1 hr₁
  cases hr₁
  rcases readDirective_tracks hclear hx (t, c) ht with hpassed | ⟨d, hd, hnear⟩
  · exact .inl hpassed
  · refine .inr ⟨_, bind_eq_ok_iff.2 ⟨_, hd, rfl⟩, push (S := { r with place := c }) ?_ ?_⟩
    · cases htwin with
      | mk _ ts ks _ htokens hks => exact .mk { r with place := c } d ts ks hnear htokens hks
    · exact Slot.put_of_quiet (Scanner.quiet_of_readDirective ht).1

/-! ## Any token -/

theorem takeNext (h : Twin s b S S') (hclear : Clear s b S.place S'.place)
    (hword : ∀ text broken c,
      plainText (S.flow != 0) (S.indent + 1) (S.place.rest.length + 1) [] Gap.empty S.place =
        .ok (text, broken, c) → text ≠ s.word) : Follows s b S.takeNext S'.takeNext := by
  cases hx : S.place.peek with
  | none =>
    simp only [Scanner.takeNext, hx, hclear.peek_eq.trans hx]
    exact h.takeEnd
  | some x =>
    cases hblank : isBlank x with
    | true =>
      rw [Scanner.takeNext_of_blank hx hblank]
      exact .error _ _
    | false =>
      have hnext := hclear.next_of_solid hx hblank
      have hnear : Near s b S.place.next S'.place.next := .clear hnext
      simp only [Scanner.takeNext, hx, hclear.peek_eq.trans hx, hclear.column_eq,
        hclear.atDocumentMark, h.flow_eq, hclear.gapAt_one hx hblank, hclear.test_one hx hblank]
      refine .ite (fun hdirective => ?_) fun _ => ?_
      · exact h.takeDirective hclear (by simp_all)
      refine .ite (fun hmark => ?_) fun _ => ?_
      · refine h.outermost.bind fun r r' hr hr' htwin => .ok (htwin.take ?_ ?_)
        · split_ifs <;> rfl
        · rw [Scanner.outermost_place hr, Scanner.outermost_place hr']
          exact .clear (hclear.skip_mark hmark)
      refine .ite (fun _ => h.takeOpening rfl hnear) fun _ => ?_
      refine .ite (fun _ => h.takeOpening rfl hnear) fun _ => ?_
      refine .ite (fun _ => h.takeClosing rfl hnear) fun _ => ?_
      refine .ite (fun _ => h.takeClosing rfl hnear) fun _ => ?_
      refine .ite (fun _ => h.takeFlowEntry hnear) fun _ => ?_
      refine .ite (fun _ => h.takeBlockEntry hnear) fun _ => ?_
      refine .ite (fun _ => h.takeKey hnear) fun _ => ?_
      refine .ite (fun _ => h.takeValue hnear) fun _ => ?_
      refine .ite (fun _ => h.takeName hnext fun _ => rfl) fun _ => ?_
      refine .ite (fun _ => h.takeName hnext fun _ => rfl) fun _ => ?_
      refine .ite (fun htag => h.takeNode (readTag_tracks hclear ?_).near ?_) fun _ => ?_
      · simp_all
      · exact fun t c ht => Slot.put_of_quiet (Scanner.quiet_of_readTag ht).1
      refine .ite (fun _ => h.takeBlockScalar hnext) fun _ => ?_
      refine .ite (fun _ => h.takeBlockScalar hnext) fun _ => ?_
      refine .ite (fun _ => h.takeQuoted hnear) fun _ => ?_
      refine .ite (fun _ => h.takeQuoted hnear) fun _ => ?_
      exact .ite (fun _ => h.takePlain hword) fun _ => .error _ _

/-! ## The gap before a token -/

theorem gapEnd (h : Twin s b S S') : S.gapEnd.Passed b ∨ Near s b S.gapEnd S'.gapEnd := by
  have hmark : Near s b
      (if S.place.index == 0 && S.place.sees 0 '\uFEFF' then S.place.next else S.place)
      (if S'.place.index == 0 && S'.place.sees 0 '\uFEFF' then S'.place.next else S'.place) := by
    have hplace := h.place
    generalize S.place = c, S'.place = d at hplace
    cases hplace with
    | slot i l k hi hk => simpa [hi] using Near.slot i l k hi hk
    | clear hclear =>
      by_cases hc : c.index = 0
      · have hd : d.index = 0 := by
          cases hclear with
          | ahead => exact hc
          | behind cs i j l k hi => exact absurd hc hi
        rw [hclear.sees_zero, hc, hd]
        split_ifs with hmark
        · exact .clear (hclear.next_of_solid (x := '\uFEFF')
            (Cursor.sees_zero_iff.1 (by simpa using hmark)) rfl)
        · exact .clear hclear
      · have hd : d.index ≠ 0 := by
          cases hclear with
          | ahead => exact hc
          | behind cs i j l k hi hj => exact hj
        simpa [hc, hd] using Near.clear hclear
  rw [Scanner.gapEnd, Scanner.gapEnd, h.flow_eq, h.keyAllowed_eq]
  rcases hmark.span (p := fun x => x == ' ' || ((S.flow != 0 || !S.keyAllowed) && x == '\t'))
    (.inr (by simp [s.first_ne_space, s.first_ne_tab])) with hpassed | ⟨-, hspan⟩
  · exact .inl ((Cursor.leadsTo_skipComment _).passed hpassed)
  · exact hspan.skipComment

theorem onNewLine (h : Twin s b S S')
    (hline : Near s b S.gapEnd.lineBreak.2 S'.gapEnd.lineBreak.2) :
    Twin s b S.onNewLine S'.onNewLine := by
  rw [Scanner.onNewLine, Scanner.onNewLine]
  generalize S.gapEnd.lineBreak.2 = c, S'.gapEnd.lineBreak.2 = d at hline
  cases h with
  | mk _ ts ks _ htokens hks =>
    exact .mk { S with place := c, keyAllowed := S.keyAllowed || S.flow == 0 } d ts ks hline
      htokens hks

theorem skipGap (h : Twin s b S S') (hn : S.place.rest.length < n)
    (hm : S'.place.rest.length < m) :
    (S.skipGap n).place.Passed b ∨ Twin s b (S.skipGap n) (S'.skipGap m) := by
  induction n generalizing m S S' with
  | zero => omega
  | succ n ih =>
    obtain ⟨m, rfl⟩ : ∃ k, m = k + 1 := ⟨m - 1, by omega⟩
    rcases h.gapEnd with hpassed | hend
    · refine .inl (Cursor.LeadsTo.passed ?_ hpassed)
      rw [Scanner.skipGap_succ]
      split_ifs
      · exact S.gapEnd.leadsTo_lineBreak.trans (S.onNewLine.extends_skipGap n).leads
      · exact .refl _
    · rw [Scanner.skipGap_succ, Scanner.skipGap_succ,
        hend.test_zero (p := isBreak) rfl s.isBreak_first]
      split_ifs with hbreak
      · have hle := S.leadsTo_gapEnd.length_le
        have hline := Cursor.length_lineBreak hbreak
        have hline' := h.place.length_lt hend.lineBreak.2 (by omega)
        refine ih (h.onNewLine hend.lineBreak.2) ?_ ?_
        · show S.gapEnd.lineBreak.2.rest.length < n
          omega
        · show S'.gapEnd.lineBreak.2.rest.length < m
          omega
      · exact .inr (h.moveTo hend)

/-- At the word a step passes it. -/
theorem passed_of_slot {l j k : Nat} (hk : k ≠ 0)
    (hplace : S.place = ⟨s.word ++ s.rest, l, j, k⟩) (h : S.takeNext = .ok S₁) :
    S₁.place.Passed s.size := by
  rw [Scanner.takeNext_of_letter (x := '$') (by rw [hplace]; rfl) (by rw [hplace]; exact hk) rfl rfl] at h
  obtain ⟨r, hr, h⟩ := bind_eq_ok_iff.1 h
  obtain ⟨⟨text, broken, c⟩, ht, h⟩ := bind_eq_ok_iff.1 h
  cases h
  rw [Scanner.saveCandidate_frame hr] at ht
  exact plainText_passed hk (hplace ▸ ht)

theorem atNext (h : Twin s b S S') : Follows s b S.atNext S'.atNext := by
  rcases h.skipGap (Nat.lt_succ_self _) (Nat.lt_succ_self _) with hpassed | hgap
  · intro r hr
    exact .inl ((Scanner.reaches_of_atNext hr).place ▸ hpassed)
  intro r hr
  obtain ⟨r₀, hr₀, rfl⟩ := map_eq_ok_iff.1 hr
  obtain ⟨r₀', hr₀', htwin⟩ := hgap.dropStale r₀ hr₀
  refine .inr ⟨_, map_eq_ok_iff.2 ⟨r₀', hr₀', rfl⟩, ?_⟩
  rw [htwin.place.column_eq]
  exact htwin.closeBlocks r₀.place.column

theorem fetch (h : Twin s b S S') (hword : ∀ c d, S.place.LeadsTo c → Clear s b c d →
    ¬ s.word <+: c.rest) (hsolid : ∀ x ∈ s.word, isSolid x = true) :
    Follows s b S.fetch S'.fetch := by
  intro r hr
  obtain ⟨r₁, hr₁, hreaches, htakes⟩ := Scanner.takes_of_fetch hr
  rcases h.atNext r₁ hr₁ with hpassed | ⟨r₁', hr₁', htwin⟩
  · exact .inl (htakes.grows.leads.passed hpassed)
  rw [Scanner.fetch_eq_atNext, hr₁] at hr
  rw [Scanner.fetch_eq_atNext, hr₁']
  rcases htwin.place.clear_or_slot with hclear | ⟨rfl, i, l, k, -, hk, hslot, -⟩
  · refine htwin.takeNext hclear (fun text broken c hread htext => ?_) r hr
    refine hword _ _ hreaches.leads hclear ?_
    exact htext ▸ plainText_solid hread (htext ▸ hsolid)
  · exact .inl (passed_of_slot hk hslot hr)

end Twin

end TokenKeeper.Yaml
