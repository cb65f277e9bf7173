import TokenKeeper.Proofs.Slot.Layout

/-!
# Reading to the end

A run of the scanner that decides the end of the text has read token after token until the text
ended, and no further (`Scanner.ends_of_run`): a key that were left open then would be waited for
without end.
-/

namespace TokenKeeper.Yaml

namespace Scanner

variable {s s' s₁ r : Scanner} {n fuel : Nat} {k : Candidate}

/-- Reading from `s` until the text ends leads to `r`. -/
inductive Ends : Scanner → Scanner → Prop
  | done {s : Scanner} (h : s.finished = true) : Ends s s
  | step {s s₁ r : Scanner} (h : s.finished = false) (hfetch : s.fetch = .ok s₁)
      (hrest : Ends s₁ r) : Ends s r

theorem Ends.grows (h : Ends s r) : Grows s r := by
  induction h with
  | done => exact (Extends.refl _).toGrows
  | step _ hfetch _ ih => exact (grows_of_fetch hfetch).trans ih

/-- At the end of the text nothing is left, and in the innermost brackets no key can begin. -/
structure AtEnd (s : Scanner) : Prop where
  rest : s.place.rest = []
  innermost : ∀ o ∈ s.candidates.head?, o = none

theorem atEnd_of_takeEnd (hrest : s.place.rest = []) (h : s.takeEnd = .ok s') : s'.AtEnd := by
  obtain ⟨s₁, hout, h⟩ := bind_eq_ok_iff.1 h
  have hplace := outermost_place hout
  obtain ⟨s₂, hdrop, hout⟩ := bind_eq_ok_iff.1 hout
  cases hout
  cases h
  refine ⟨hplace.symm ▸ hrest, ?_⟩
  show ∀ o ∈ s₂.candidates.head?, o = none
  unfold dropCandidate at hdrop
  split at hdrop
  next =>
    split_ifs at hdrop
    cases hdrop
    simp
  next hnone =>
    cases hdrop
    intro o ho
    cases hks : (s.closeBlocks (-1)).candidates with
    | nil => simp [hks] at ho
    | cons o' ks =>
      rw [hks] at ho
      cases ho
      cases o with
      | none => rfl
      | some k => exact absurd hks (hnone k ks)

theorem atEnd_of_fetch (hs : s.finished = true → s.AtEnd) (h : s.fetch = .ok s')
    (hfinished : s'.finished = true) : s'.AtEnd := by
  obtain ⟨s₁, hnext, hreaches, htakes⟩ := takes_of_fetch h
  by_cases hrest : s₁.place.rest = []
  · rw [fetch_eq_atNext, hnext] at h
    exact atEnd_of_takeEnd hrest ((takeNext_of_end hrest).symm.trans h)
  · exfalso
    have hopen : s₁.finished = false := by
      rw [hreaches.finished]
      refine Bool.eq_false_iff.2 fun hs' => hrest ?_
      have hsuffix := hreaches.leads.suffix
      rwa [(hs hs').rest, List.suffix_nil] at hsuffix
    cases htakes with
    | quiet hextends =>
      rw [hextends.finished, hopen] at hfinished
      cases hfinished
    | atEnd _ hend => exact hrest hend
    | plain hsave =>
      have hsame := (extends_saveCandidate hsave).finished
      exact nomatch (hopen.symm.trans hsame.symm).trans hfinished

theorem prefix_closeBlocks (s : Scanner) (column : Int) :
    s.tokens.toList <+: (s.closeBlocks column).tokens.toList := by
  have hgo (indent : Int) (tokens : Array Token) (indents : List Int) :
      tokens.toList <+: (closeBlocks.go s column indent tokens indents).tokens.toList := by
    induction indents generalizing indent tokens with
    | nil => exact List.prefix_rfl
    | cons i is ih =>
      rw [closeBlocks.go]
      split_ifs
      · refine List.IsPrefix.trans ?_ (ih i (tokens.push .blockEnd))
        rw [Array.toList_push]
        exact List.prefix_append _ _
      · exact List.prefix_rfl
  rw [closeBlocks]
  split_ifs
  · exact hgo s.indent s.tokens s.indents
  · exact List.prefix_rfl

theorem AtEnd.dropStale (h : s.AtEnd) (hs : s.dropStale = .ok s₁) : s₁.AtEnd := by
  simp only [Scanner.dropStale] at hs
  split_ifs at hs
  cases hs
  refine ⟨h.rest, fun o ho => ?_⟩
  rw [List.head?_map] at ho
  obtain ⟨o', ho', rfl⟩ := Option.map_eq_some_iff.1 ho
  rw [h.innermost o' ho']
  rfl

/-- A place for a key that is left open at the end of the text. -/
structure Stuck (s : Scanner) (k : Candidate) : Prop extends AtEnd s where
  mem : some k ∈ s.candidates
  fresh : s.isStale k = false

theorem Stuck.dropStale (h : s.Stuck k) (hs : s.dropStale = .ok s₁) : s₁.Stuck k := by
  refine ⟨h.toAtEnd.dropStale hs, ?_, ?_⟩
  · simp only [Scanner.dropStale] at hs
    split_ifs at hs
    cases hs
    exact List.mem_map.2 ⟨some k, h.mem, by simp [Option.filter, h.fresh]⟩
  · rw [dropStale_frame hs]
    exact h.fresh

theorem dropCandidate_of_innermost (h : ∀ o ∈ s.candidates.head?, o = none) :
    s.dropCandidate = .ok s := by
  unfold Scanner.dropCandidate
  split
  next k ks hks =>
    rw [hks] at h
    exact nomatch h (some k) rfl
  · rfl

theorem Stuck.fetch (h : s.Stuck k) (hfetch : s.fetch = .ok s') :
    s'.Stuck k ∧ s.tokens.toList <+: s'.tokens.toList := by
  have hgap : s.skipGap (s.place.rest.length + 1) = s := by
    have hend : s.gapEnd = s.place := by
      rw [gapEnd_of_remark (by rw [h.rest]; simp), Cursor.skipComment, Cursor.sees, Cursor.test, h.rest]
      rfl
    rw [skipGap_succ, hend, Cursor.test, h.rest]
    rfl
  rw [fetch_eq, hgap] at hfetch
  obtain ⟨s₀, hstale, hfetch⟩ := bind_eq_ok_iff.1 hfetch
  have htokens : s₀.tokens = s.tokens := by rw [dropStale_frame hstale]
  have hstuck : ((s₀.closeBlocks s₀.place.column).closeBlocks (-1)).Stuck k := by
    have h₀ := h.dropStale hstale
    rw [closeBlocks_frame (s₀.closeBlocks _), closeBlocks_frame s₀]
    exact ⟨⟨h₀.rest, h₀.innermost⟩, h₀.mem, h₀.fresh⟩
  have hrest : (s₀.closeBlocks s₀.place.column).place.rest = [] := by
    have := hstuck.rest
    rwa [closeBlocks_frame] at this
  have hclose := (s₀.prefix_closeBlocks s₀.place.column).trans (prefix_closeBlocks _ (-1))
  rw [takeNext_of_end hrest, takeEnd, outermost, dropCandidate_of_innermost hstuck.innermost] at hfetch
  cases hfetch
  refine ⟨⟨⟨hstuck.rest, hstuck.innermost⟩, hstuck.mem, hstuck.fresh⟩, ?_⟩
  rw [htokens] at hclose
  refine hclose.trans ?_
  simp only [push, Array.toList_push]
  exact List.prefix_append _ _

theorem take_of_prefix {α : Type} {xs ys : List α} {n : Nat} (h : xs <+: ys) (hn : n ≤ xs.length) :
    ys.take n = xs.take n := by
  obtain ⟨zs, rfl⟩ := h
  exact List.take_append_of_le_length hn

/-- Then no more tokens are decided. -/
theorem Stuck.run {fault : Option Fault} {m : Nat} (h : s.Stuck k) (hk : k.token < s.tokens.size)
    (hrun : s.run fuel k.token = (m, s', fault)) :
    s'.tokens.toList.take m = s.tokens.toList.take k.token := by
  induction fuel generalizing s with
  | zero =>
    cases hrun
    rfl
  | succ fuel ih =>
    rw [Scanner.run] at hrun
    dsimp only at hrun
    rw [if_pos hk] at hrun
    split at hrun
    · cases hrun
      rfl
    next s₁ hstale =>
      have hstuck := h.dropStale hstale
      have htokens : s₁.tokens = s.tokens := by rw [dropStale_frame hstale]
      rw [if_pos (List.any_eq_true.2 ⟨some k, hstuck.mem, by simp⟩)] at hrun
      split at hrun
      next s₂ hfetch =>
        obtain ⟨hstuck₂, hprefix⟩ := hstuck.fetch hfetch
        rw [htokens] at hprefix
        have hsize := hprefix.length_le
        simp only [Array.length_toList] at hsize
        rw [ih hstuck₂ (by omega) hrun, take_of_prefix hprefix (by simp; omega)]
      · cases hrun
        rw [htokens]

/-- The text has ended exactly if its end is the last token, and it is a token but once. -/
structure Sealed (s : Scanner) : Prop where
  «open» : s.finished = false → .streamEnd ∉ s.tokens
  closed : s.finished = true → s.AtEnd ∧
    ∃ ts, s.tokens.toList = ts ++ [.streamEnd] ∧ .streamEnd ∉ ts

theorem sealed_of_fetch (hs : s.Sealed) (hopen : s.finished = false) (h : s.fetch = .ok s') :
    s'.Sealed := by
  obtain ⟨s₁, hnext, hreaches, htakes⟩ := takes_of_fetch h
  have hs₁ : .streamEnd ∉ s₁.tokens := fun hmem => hs.open hopen (hreaches.loud _ hmem rfl)
  have hopen₁ : s₁.finished = false := hreaches.finished.trans hopen
  refine ⟨fun hopen' hmem => ?_, fun hclosed =>
    ⟨atEnd_of_fetch (fun hclosed => nomatch hopen.symm.trans hclosed) h hclosed, ?_⟩⟩
  · cases htakes with
    | quiet hextends => exact hs₁ (hextends.loud _ hmem rfl)
    | atEnd => cases hopen'
    | plain hsave =>
      rcases Array.mem_push.1 hmem with hmem | hmem
      · exact hs₁ ((extends_saveCandidate hsave).loud _ hmem rfl)
      · cases hmem
  · cases htakes with
    | quiet hextends => exact nomatch (hopen₁.symm.trans hextends.finished.symm).trans hclosed
    | @atEnd s₂ hextends =>
      exact ⟨s₂.tokens.toList, Array.toList_push .., fun hmem =>
        hs₁ (hextends.loud _ (Array.mem_toList_iff.1 hmem) rfl)⟩
    | plain hsave =>
      exact nomatch (hopen₁.symm.trans (extends_saveCandidate hsave).finished.symm).trans hclosed

theorem Sealed.dropStale (hs : s.Sealed) (h : s.dropStale = .ok s₁) : s₁.Sealed := by
  have hframe := dropStale_frame h
  have htokens : s₁.tokens = s.tokens := by rw [hframe]
  have hfinished : s₁.finished = s.finished := by rw [hframe]
  refine ⟨fun hopen => htokens ▸ hs.open (hfinished ▸ hopen), fun hclosed => ?_⟩
  obtain ⟨hend, ts, hts⟩ := hs.closed (hfinished ▸ hclosed)
  exact ⟨hend.dropStale h, ts, htokens ▸ hts⟩

/-- The end of the text is decided only with all tokens. -/
theorem Sealed.of_mem (hs : s.Sealed) (hmem : .streamEnd ∈ s.tokens.toList.take n) :
    s.finished = true ∧ s.tokens.size ≤ n := by
  have hclosed : s.finished = true := Bool.of_not_eq_false fun hopen =>
    hs.open hopen (Array.mem_toList_iff.1 (List.mem_of_mem_take hmem))
  refine ⟨hclosed, Nat.not_lt.1 fun hlt => ?_⟩
  obtain ⟨-, ts, hts, hnot⟩ := hs.closed hclosed
  have hsize : s.tokens.size = ts.length + 1 := by rw [← Array.length_toList, hts]; simp
  rw [hts, List.take_append_of_le_length (by omega)] at hmem
  exact hnot (List.mem_of_mem_take hmem)

theorem Sealed.done (hs : s.Sealed) (hmem : .streamEnd ∈ s.tokens.toList.take n) :
    ∃ r, s.Ends r ∧ r.tokens = s.tokens ∧ s.tokens.size ≤ n :=
  ⟨s, .done (hs.of_mem hmem).1, rfl, (hs.of_mem hmem).2⟩

theorem Ends.of_dropStale (h : s.dropStale = .ok s₁) (hends : s₁.Ends r) :
    ∃ r', s.Ends r' ∧ r'.tokens = r.tokens := by
  have hframe := dropStale_frame h
  have hfinished : s₁.finished = s.finished := by rw [hframe]
  cases hends with
  | done hdone => exact ⟨s, .done (hfinished ▸ hdone), by rw [hframe]⟩
  | step hopen hfetch hrest =>
    exact ⟨r, .step (hfinished ▸ hopen) (fetch_of_dropStale h ▸ hfetch) hrest, rfl⟩

/-- A key that the end of the text leaves open keeps the end from being decided. -/
theorem Sealed.open_of_pending {fault : Option Fault} {m : Nat} (hs : s.Sealed)
    (hpending : s.candidates.any fun k => k.any fun k => k.token == n) (hlt : n < s.tokens.size)
    (hstale : ∀ {k}, some k ∈ s.candidates → s.isStale k = false) (hfetch : s.fetch = .ok s₁)
    (h : s₁.run fuel n = (m, s', fault)) (hmem : .streamEnd ∈ s'.tokens.toList.take m) :
    s.finished = false := by
  refine Bool.eq_false_iff.2 fun hfinished => ?_
  obtain ⟨o, ho, hk⟩ := List.any_eq_true.1 hpending
  obtain ⟨k, rfl, hk⟩ := (Option.any_eq_true _ _).1 hk
  obtain rfl : k.token = n := by simpa using hk
  have hstuck : s.Stuck k := ⟨(hs.closed hfinished).1, ho, hstale ho⟩
  obtain ⟨hstuck₁, hprefix⟩ := hstuck.fetch hfetch
  have hsize := hprefix.length_le
  simp only [Array.length_toList] at hsize
  rw [hstuck₁.run (by omega) h, take_of_prefix hprefix (by simp; omega)] at hmem
  have := (hs.of_mem hmem).2
  omega

/-- A run that decides the end of the text has read to the end, and decides all tokens. -/
theorem ends_of_run {fault : Option Fault} {m : Nat} (hs : s.Sealed)
    (h : s.run fuel n = (m, s', fault)) (hmem : .streamEnd ∈ s'.tokens.toList.take m) :
    ∃ r, s.Ends r ∧ r.tokens = s'.tokens ∧ s'.tokens.size ≤ m := by
  induction fuel generalizing n s with
  | zero =>
    cases h
    exact hs.done hmem
  | succ fuel ih =>
    have hmore {s₁ s₂ : Scanner} (hs : s₁.Sealed) (hopen : s₁.finished = false)
        (hfetch : s₁.fetch = .ok s₂) (h : run fuel n s₂ = (m, s', fault)) :
        ∃ r, s₁.Ends r ∧ r.tokens = s'.tokens ∧ s'.tokens.size ≤ m := by
      obtain ⟨r, hends, htokens, hsize⟩ := ih (sealed_of_fetch hs hopen hfetch) h
      exact ⟨r, .step hopen hfetch hends, htokens, hsize⟩
    rw [run] at h
    dsimp only at h
    split_ifs at h with hlt hfinished
    · split at h
      · cases h
        exact hs.done hmem
      next s₁ hstale =>
        have htokens : s₁.tokens = s.tokens := by rw [dropStale_frame hstale]
        have hs₁ := hs.dropStale hstale
        suffices hends : ∃ r, s₁.Ends r ∧ r.tokens = s'.tokens ∧ s'.tokens.size ≤ m by
          obtain ⟨r, hends, htokens, hsize⟩ := hends
          obtain ⟨r', hends', htokens'⟩ := hends.of_dropStale hstale
          exact ⟨r', hends', htokens'.trans htokens, hsize⟩
        split_ifs at h with hpending
        · split at h
          next s₂ hfetch =>
            refine hmore hs₁ ?_ hfetch h
            exact hs₁.open_of_pending hpending (htokens ▸ hlt) (isStale_of_dropStale hstale) hfetch h
              hmem
          · cases h
            exact hs₁.done hmem
        · exact ih hs₁ h
    · cases h
      exact hs.done hmem
    · split at h
      next s₁ hfetch => exact hmore hs (Bool.eq_false_iff.2 hfinished) hfetch h
      · cases h
        exact hs.done hmem

end Scanner

end TokenKeeper.Yaml
