import TokenKeeper.Proofs.Slot.Crossing
import TokenKeeper.Proofs.Slot.Run

/-!
# The tokens of two texts that differ in one word

If the word is the value of a key on its own, a text with the value in its place has the same tokens,
up to the value in that place (`Slot.tokens_put`).
-/

namespace TokenKeeper.Yaml

variable {s : Slot} {S S' T R R' Q : Scanner} {i k : Nat} {ts ts' : List Token}

/-- The word is a scalar by itself, directly behind the colon of a key. -/
def Fills (word : List Char) (ts : List Token) : Prop :=
  ∃ before behind, ts = before ++ .value :: .scalar word .plain :: behind ∧
    .scalar word .plain ∉ before

theorem Fills.mem {word : List Char} (h : Fills word ts) : .scalar word .plain ∈ ts := by
  obtain ⟨before, behind, rfl, -⟩ := h
  simp

theorem eq_of_append_cons {α : Type} {a : α} {xs ys xs' ys' : List α} (hx : a ∉ xs) (hy : a ∉ ys)
    (h : xs ++ a :: xs' = ys ++ a :: ys') : xs = ys := by
  rcases List.append_eq_append_iff.1 h with ⟨zs, rfl, hzs⟩ | ⟨zs, rfl, hzs⟩
  · cases zs with
    | nil => rw [List.append_nil]
    | cons z zs =>
      obtain rfl := (List.cons.inj hzs).1
      exact absurd (by simp) hy
  · cases zs with
    | nil => rw [List.append_nil]
    | cons z zs =>
      obtain rfl := (List.cons.inj hzs).1
      exact absurd (by simp) hx

/-- Behind the word the texts are read alike to their ends. -/
theorem Twin.ends_behind (h : Twin s 0 S S') (hfits : s.Fits) (honce : s.Once S.place)
    (hpassed : S.place.Passed s.size) (hends : S.Ends R) (hends' : S'.Ends R') :
    R'.tokens = R.tokens.map s.put := by
  -- nothing comes before place 0, so no step passes it, and each is followed
  induction hends generalizing S' with
  | done hdone =>
    cases hends' with
    | done => exact h.tokens_eq
    | step hopen => exact nomatch hopen.symm.trans (h.finished_eq.trans hdone)
  | step hopen hfetch _ ih =>
    cases hends' with
    | done hdone => exact nomatch hdone.symm.trans (h.finished_eq.trans hopen)
    | step _ hfetch' hrest' =>
      have hleads := (Scanner.grows_of_fetch hfetch).leads
      obtain ⟨r, hr, htwin⟩ := (h.fetch (fun c d hc _ => (honce.leads hc).passed (hc.passed hpassed))
        hfits.solid _ hfetch).resolve_left Cursor.not_passed_zero
      rw [hfetch'] at hr
      cases hr
      exact ih htwin (honce.leads hleads) (hleads.passed hpassed) hrest'

/-- A word that has been passed is read no more. -/
theorem notMem_of_passed (hfits : s.Fits) (honce : s.Once S.place) (hpassed : S.place.Passed s.size)
    (hS : .scalar s.word .plain ∉ S.tokens) (hends : S.Ends R) :
    .scalar s.word .plain ∉ R.tokens := by
  induction hends with
  | done => exact hS
  | step _ hfetch _ ih =>
    have hleads := (Scanner.grows_of_fetch hfetch).leads
    refine ih (honce.leads hleads) (hleads.passed hpassed) fun hmem => ?_
    obtain ⟨T, -, -, -, hnext, hahead, -⟩ := word_of_fetch hfits honce hS hfetch hmem
    have hT := (Scanner.reaches_of_atNext hnext).leads.passed hpassed
    rw [Cursor.Passed, hahead] at hT
    exact Nat.lt_irrefl _ hT

namespace ReadsWord

theorem passed (h : ReadsWord s i k S T R) (hR : S.fetch = .ok R) : R.place.Passed s.size := by
  rw [Scanner.fetch_eq_atNext, h.atNext] at hR
  exact Twin.passed_of_slot h.column h.place hR

/-- The tokens up to the word are final. -/
theorem tokens_final (h : ReadsWord s i k S T R) (hfits : s.Fits) (hS : S.Sound) (hR : R.Sound)
    (hnext : R.fetch = .ok Q) (hends : Q.Ends R') :
    ∃ ts, R'.tokens.toList = T.tokens.toList ++ .scalar s.word .plain :: ts := by
  have hgrows := (Scanner.grows_of_fetch (h.next hfits hS hR hnext).2).trans hends.grows
  obtain ⟨-, htake, -⟩ := hgrows.settled R.tokens.size (Nat.le_refl _) fun k hk => by simp at hk
  refine ⟨R'.tokens.toList.drop R.tokens.size, ?_⟩
  have htokens : R.tokens.toList = T.tokens.toList ++ [.scalar s.word .plain] := by
    rw [h.tokens_eq, Array.toList_push]
  have hall : R.tokens.toList.take R.tokens.size = R.tokens.toList :=
    List.take_of_length_le (by simp)
  rw [List.append_cons, ← htokens, ← hall, ← htake, List.take_append_drop]

end ReadsWord

/-- Where the word is read the value is read, and from there on the texts are read alike. -/
theorem ReadsWord.ends (h : ReadsWord s i k S T R) (htwin : Twin s s.size S S') (hfits : s.Fits)
    (honce : s.Once S.place) (hsound : S.Sound) (hsound' : S'.Sound)
    (hindent : T.indent < T.place.column) (hfetch : S.fetch = .ok R) (hfetch' : S'.fetch = .ok R')
    (hopen : R.finished = false) {Z Z' : Scanner} (hends : R.Ends Z) (hends' : R'.Ends Z') :
    Z'.tokens = Z.tokens.map s.put := by
  have hgrows := Scanner.grows_of_fetch hfetch
  have hgrows' := Scanner.grows_of_fetch hfetch'
  obtain ⟨d, ks, rfl, hbeyond, hks⟩ := htwin.cross hfits h hindent hfetch'
  cases hends with
  | done hdone => exact nomatch hopen.symm.trans hdone
  | @step _ Q _ _ hnext hrest =>
    cases hends' with
    | done hdone => exact nomatch hopen.symm.trans hdone
    | @step _ Q' _ _ hnext' hrest' =>
      -- the candidates for a key may differ now, but none of them is left for the next step
      have hN := (h.next hfits hsound (hgrows.sound hsound) hnext).2
      have hN' : ({ R with place := d, tokens := R.tokens.map s.put, candidates := [none] } :
          Scanner).fetch = .ok Q' := by
        refine (Scanner.fetch_of_idle (hgrows'.sound hsound') h.flow_eq ?_ hnext').2
        refine hbeyond.ahead.imp And.right fun hline k' hk' => ?_
        exact Nat.lt_of_le_of_lt (line_le_of_shifted hks (h.line_le hsound) k' hk') hline.2
      have hcrossed : Crossed s T.place.line { R with candidates := [none] }
          { R with place := d, tokens := R.tokens.map s.put, candidates := [none] } :=
        .mk { R with candidates := [none] } d _ hbeyond rfl rfl
      have honce' := honce.leads hgrows.leads
      have hpassed := h.passed hfetch
      rcases hcrossed.fetch hfits honce' hpassed hN hN' with htwin | ⟨hdone, hdone', htokens⟩
      · have hleads := (Scanner.grows_of_fetch hnext).leads
        exact htwin.ends_behind hfits (honce'.leads hleads) (hleads.passed hpassed) hrest hrest'
      · cases hrest with
        | step hopen => exact nomatch hopen.symm.trans hdone
        | done =>
          cases hrest' with
          | step hopen => exact nomatch hopen.symm.trans hdone'
          | done => exact htokens

/-- Read to their ends, the two texts have the same tokens. -/
theorem Twin.ends (h : Twin s s.size S S') (hfits : s.Fits) (honce : s.Once S.place)
    (hsound : S.Sound) (hsound' : S'.Sound) (hS : .scalar s.word .plain ∉ S.tokens)
    (hprevious : S.tokens = #[] ∨ ∃ P : Scanner, P.Sound ∧ P.fetch = .ok S)
    (hends : S.Ends R) (hends' : S'.Ends R') (hfills : Fills s.word R.tokens.toList) :
    R'.tokens = R.tokens.map s.put := by
  have hR := Array.mem_toList_iff.1 hfills.mem
  induction hends generalizing S' with
  | done => exact absurd hR hS
  | @step S S₁ R hopen hfetch hrest ih =>
    cases hends' with
    | done hdone => exact nomatch hdone.symm.trans (h.finished_eq.trans hopen)
    | @step _ S₁' _ _ hfetch' hrest' =>
      have hgrows := Scanner.grows_of_fetch hfetch
      have hgrows' := Scanner.grows_of_fetch hfetch'
      have honce₁ := honce.leads hgrows.leads
      have hsound₁ := hgrows.sound hsound
      -- the step after which the word is a token is the one that reads it; all before are followed
      by_cases hmem : .scalar s.word .plain ∈ S₁.tokens
      · obtain ⟨i, k, T, hreads⟩ := readsWord_of_fetch h hfits honce hS hfetch hmem
        have hopen₁ := hreads.finished_eq.trans hopen
        refine hreads.ends h hfits honce hsound hsound' ?_ hfetch hfetch' hopen₁ hrest hrest'
        cases hrest with
        | done hdone => exact nomatch hopen₁.symm.trans hdone
        | @step _ Q _ _ hnext hrest =>
          obtain ⟨more, hmore⟩ := hreads.tokens_final hfits hsound hsound₁ hnext hrest
          obtain ⟨before, behind, hfills, hbefore⟩ := hfills
          have hT : .scalar s.word .plain ∉ T.tokens.toList := fun hT =>
            hS (hreads.reaches.loud _ (Array.mem_toList_iff.1 hT) rfl)
          rw [List.append_cons before] at hfills
          have hback : T.tokens.toList = before ++ [.value] :=
            eq_of_append_cons hT (by simpa using hbefore) (hmore.symm.trans hfills)
          have hback' : T.tokens.back? = some .value := by
            rw [← Array.getLast?_toList, hback, List.getLast?_concat]
          -- the colon is a token already, so this is not the first step
          rcases hprevious with hempty | ⟨P, hP, hprevious⟩
          · obtain ⟨htokens, -⟩ := hreads.reaches.back _ hback' nofun
            rw [htokens, hempty] at hback'
            cases hback'
          · exact hreads.indent_lt hfits hsound hsound₁ hnext hback' hP hprevious
      · have hword (c d : Cursor) (hc : S.place.LeadsTo c) (hclear : Clear s s.size c d) :
            ¬ s.word <+: c.rest := fun hword =>
          hclear.rest_ne (Nat.succ_ne_zero _) ((honce.leads hc) _ List.suffix_rfl hword)
        obtain ⟨r, hr, htwin⟩ := (h.fetch hword hfits.solid _ hfetch).resolve_left fun hpassed =>
          notMem_of_passed hfits honce₁ hpassed hmem hrest hR
        rw [hfetch'] at hr
        cases hr
        exact ih htwin honce₁ hsound₁ (hgrows'.sound hsound') hmem (.inr ⟨S, hsound, hfetch⟩) hrest'
          hfills hR

theorem start_cons {x : Char} (hx : x ≠ '\uFEFF') (cs : List Char) :
    Cursor.start (x :: cs) = ⟨x :: cs, 0, 0, 0⟩ := by
  unfold Cursor.start
  split
  next h => exact absurd (List.cons.inj h).1 hx
  · rfl

theorem twin_start {before : List Char} (hlast : ∃ x ∈ before.getLast?, isBlank x = true) :
    Twin s s.size (.start (before ++ (s.word ++ s.rest)))
      (.start (before ++ (s.value ++ s.rest))) := by
  obtain ⟨y, hy, hblank⟩ := hlast
  have hmk {c d : Cursor} (h : Near s s.size c d) :
      Twin s s.size ⟨c, #[], -1, [], 0, true, [none], false⟩ ⟨d, #[], -1, [], 0, true, [none], false⟩ :=
    .mk ⟨c, #[], -1, [], 0, true, [none], false⟩ d #[] [none] h (by simp) (.cons .none .nil)
  have hahead (x : Char) (cs : List Char) (hcs : y ∈ (x :: cs).getLast?) :
      Near s s.size ⟨x :: (cs ++ (s.word ++ s.rest)), 0, 0, 0⟩
        ⟨x :: (cs ++ (s.value ++ s.rest)), 0, 0, 0⟩ :=
    .clear (.ahead x cs 0 0 0 fun z hz => Option.some.inj (hcs.symm.trans hz) ▸ hblank)
  cases before with
  | nil => cases hy
  | cons x cs =>
    by_cases hmark : x = '\uFEFF'
    · subst hmark
      cases cs with
      | nil =>
        cases hy
        cases hblank
      | cons x cs => exact hmk (hahead x cs hy)
    · simp only [Scanner.start, List.cons_append, start_cons hmark]
      exact hmk (hahead x cs hy)

theorem start_sound (text : List Char) : (Scanner.start text).Sound :=
  ⟨⟨rfl, rfl⟩, fun k hk => by simp [Scanner.start] at hk⟩

theorem start_suffix (text : List Char) : (Scanner.start text).place.rest <:+ text := by
  show (Cursor.start text).rest <:+ text
  unfold Cursor.start
  split
  · exact List.suffix_cons _ _
  · exact List.suffix_rfl

theorem start_sealed (text : List Char) : (Scanner.start text).Sealed :=
  ⟨fun _ => nofun, nofun⟩

theorem ends_of_tokens {text : List Char} (h : .streamEnd ∈ (tokens text).1) :
    ∃ R, (Scanner.start text).Ends R ∧ (tokens text).1 = R.tokens.toList := by
  unfold tokens at h ⊢
  dsimp only at h ⊢
  split_ifs at h ⊢
  · generalize hrun : (Scanner.start text).run (8 * text.length + 16) 0 = r at h ⊢
    obtain ⟨m, S, fault⟩ := r
    obtain ⟨R, hends, htokens, hsize⟩ := Scanner.ends_of_run (start_sealed text) hrun h
    refine ⟨R, hends, ?_⟩
    rw [htokens]
    exact List.take_of_length_le (by simpa using hsize)
  · exact nomatch h

/-- A text with the word as a value on its own, and the text with the value in its place, have the same
tokens up to the value in that place. -/
theorem Slot.tokens_put {before : List Char} (hfits : s.Fits)
    (hlast : ∃ x ∈ before.getLast?, isBlank x = true)
    (honce : ∀ cs, cs <:+ before ++ (s.word ++ s.rest) → s.word <+: cs → cs = s.word ++ s.rest)
    (hend : .streamEnd ∈ (tokens (before ++ (s.word ++ s.rest))).1)
    (hend' : .streamEnd ∈ (tokens (before ++ (s.value ++ s.rest))).1)
    (hfills : Fills s.word (tokens (before ++ (s.word ++ s.rest))).1) :
    (tokens (before ++ (s.value ++ s.rest))).1 =
      (tokens (before ++ (s.word ++ s.rest))).1.map s.put := by
  obtain ⟨R, hR, htokens⟩ := ends_of_tokens hend
  obtain ⟨R', hR', htokens'⟩ := ends_of_tokens hend'
  rw [htokens] at hfills
  have hmap := (twin_start hlast).ends hfits
    (fun cs hcs => honce cs (List.IsSuffix.trans hcs (start_suffix _))) (start_sound _)
    (start_sound _) (by simp [Scanner.start]) (.inl rfl) hR hR' hfills
  rw [htokens, htokens', hmap, Array.toList_map]

end TokenKeeper.Yaml
