import Mathlib.Data.List.DropRight
import TokenKeeper.Config.Placeholder
import TokenKeeper.Proofs.Utf8

/-!
# Expansion is one pass from left to right

A placeholder is a piece of text of one of two forms (`Placeholder.IsWritten`, `Placeholder.spelling`),
and reading one off the start of a text finds exactly those (`atStart?_spelling`, `written_of_atStart?`).
The only closing brace of a spelling is its last character. So where a placeholder begins in the first
of two texts and a brace follows there, it ends there too, which is why such texts can be expanded one
by one (`expandFrom_append`). What has been put in is never looked at: expansion goes on behind the
placeholder.
-/

namespace TokenKeeper

namespace Placeholder

/-- The characters of a placeholder in a text. -/
def spelling (p : Placeholder) : List Char :=
  '$' :: '{' :: (p.name ++ p.fallback.elim [] (':' :: ·) ++ ['}'])

/-- The name is there and made of word characters, and the default holds no closing brace. -/
structure IsWritten (p : Placeholder) : Prop where
  name_ne_nil : p.name ≠ []
  isWord : ∀ c ∈ p.name, Text.isWord c = true
  fallback : ∀ d, p.fallback = some d → '}' ∉ d

/-- No placeholder is written anywhere in the text. -/
def Free (text : List Char) : Prop :=
  ∀ (q : Placeholder) (before after : List Char), q.IsWritten → text ≠ before ++ q.spelling ++ after

/-- No placeholder begins in the text `x` when `rest` follows it. -/
def Leads (x rest : List Char) : Prop :=
  ∀ (q : Placeholder) (before after : List Char), q.IsWritten →
    x ++ rest = before ++ q.spelling ++ after → x.length ≤ before.length

variable {env : Environment} {p : Placeholder} {c : Char} {cs x y rest : List Char}

theorem not_isWord_brace : Text.isWord '}' = false := by decide +kernel

theorem not_isWord_colon : Text.isWord ':' = false := by decide +kernel

theorem takeWhile_append_of_stop {f : Char → Bool} (hx : ∀ c ∈ x, f c = true) (hc : f c = false)
    (cs : List Char) : (x ++ c :: cs).takeWhile f = x := by
  rw [List.takeWhile_append_of_pos hx, List.takeWhile_cons_of_neg (by simp [hc]), List.append_nil]

theorem dropWhile_append_of_stop {f : Char → Bool} (hx : ∀ c ∈ x, f c = true) (hc : f c = false)
    (cs : List Char) : (x ++ c :: cs).dropWhile f = c :: cs := by
  rw [List.dropWhile_append_of_pos hx, List.dropWhile_cons_of_neg (by simp [hc])]

theorem atStart?_spelling (h : p.IsWritten) (rest : List Char) :
    atStart? (p.spelling ++ rest) = some { p with width := p.spelling.length } := by
  obtain ⟨name, fallback, width⟩ := p
  obtain ⟨hne, hword, hfallback⟩ := h
  have hnonempty : name.isEmpty = false := by simpa using hne
  cases fallback with
  | none =>
    have htext : spelling ⟨name, none, width⟩ ++ rest = '$' :: '{' :: (name ++ '}' :: rest) := by
      simp [spelling]
    have htake := takeWhile_append_of_stop hword not_isWord_brace rest
    have hdrop := dropWhile_append_of_stop hword not_isWord_brace rest
    rw [htext, atStart?]
    simp only [htake, hdrop, hnonempty, Bool.false_eq_true, ↓reduceIte]
    simp [spelling]
  | some d =>
    have htext : spelling ⟨name, some d, width⟩ ++ rest =
        '$' :: '{' :: (name ++ ':' :: (d ++ '}' :: rest)) := by
      simp [spelling]
    have hd : ∀ c ∈ d, (c != '}') = true := by
      intro c hc
      have := hfallback d rfl
      simp only [bne_iff_ne]
      rintro rfl
      exact this hc
    have htake := takeWhile_append_of_stop hword not_isWord_colon (d ++ '}' :: rest)
    have hdrop := dropWhile_append_of_stop hword not_isWord_colon (d ++ '}' :: rest)
    have htake' := takeWhile_append_of_stop hd (c := '}') rfl rest
    have hdrop' := dropWhile_append_of_stop hd (c := '}') rfl rest
    rw [htext, atStart?]
    simp only [htake, hdrop, htake', hdrop', hnonempty, Bool.false_eq_true, ↓reduceIte]
    simp [spelling]
    omega

theorem written_of_atStart? (h : atStart? cs = some p) :
    p.IsWritten ∧ p.width = p.spelling.length ∧ ∃ rest, cs = p.spelling ++ rest := by
  unfold atStart? at h
  split at h
  next cs =>
    have hword : ∀ c ∈ cs.takeWhile Text.isWord, Text.isWord c = true :=
      fun c hc => List.mem_takeWhile_imp hc
    have hsplit := List.takeWhile_append_dropWhile (p := Text.isWord) (l := cs)
    dsimp only at h
    split at h
    · cases h
    next hne =>
      have hne' : cs.takeWhile Text.isWord ≠ [] := by simpa using hne
      split at h
      next rest hdrop =>
        cases h
        rw [hdrop] at hsplit
        exact ⟨⟨hne', hword, fun _ hd => (nomatch hd)⟩, by simp [spelling], rest,
          by simp [spelling, hsplit]⟩
      next rest hdrop =>
        have hrest := List.takeWhile_append_dropWhile (p := (· != '}')) (l := rest)
        split at h
        next rest' hdrop' =>
          cases h
          rw [hdrop] at hsplit
          rw [hdrop'] at hrest
          refine ⟨⟨hne', hword, ?_⟩, by simp [spelling]; omega, rest',
            by simp [spelling, hsplit, hrest]⟩
          rintro _ ⟨⟩ hbrace
          have := List.mem_takeWhile_imp hbrace
          simp at this
        · cases h
      · cases h
  · cases h

theorem IsWritten.brace_notMem_dropLast (h : p.IsWritten) : '}' ∉ p.spelling.dropLast := by
  have hlast : p.spelling.dropLast = '$' :: '{' :: (p.name ++ p.fallback.elim [] (':' :: ·)) := by
    rw [spelling, ← List.cons_append, ← List.cons_append, List.dropLast_concat]
  rw [hlast]
  have hname : '}' ∉ p.name := by
    intro hmem
    have := h.isWord _ hmem
    rw [not_isWord_brace] at this
    cases this
  cases hf : p.fallback with
  | none => simpa using hname
  | some d => simpa using ⟨hname, h.fallback d hf⟩

theorem spelling_ne_nil (p : Placeholder) : p.spelling ≠ [] := List.cons_ne_nil _ _

theorem atStart?_eq_none (h : ∀ q : Placeholder, q.IsWritten → ¬ q.spelling <+: cs) :
    atStart? cs = none := by
  cases hq : atStart? cs with
  | none => rfl
  | some q =>
    obtain ⟨hw, -, rest, hcs⟩ := written_of_atStart? hq
    exact absurd ⟨rest, hcs.symm⟩ (h q hw)

theorem expandFrom_drop (env : Environment) (n : Nat) (cs : List Char) :
    expandFrom env n cs = expandFrom env 0 (cs.drop n) := by
  induction cs generalizing n with
  | nil => cases n <;> simp [expandFrom]
  | cons c cs ih =>
    cases n with
    | zero => rfl
    | succ n => rw [expandFrom, ih, List.drop_succ_cons]

/-- A placeholder gives way to its value, and expansion goes on behind it. -/
theorem expandFrom_spelling (env : Environment) (h : p.IsWritten) (rest : List Char) :
    expandFrom env 0 (p.spelling ++ rest) = p.value env ++ expandFrom env 0 rest := by
  have hstart := atStart?_spelling h rest
  have hdrop : ((p.spelling ++ rest).tail).drop (p.spelling.length - 1) = rest := by
    rw [List.drop_tail, Nat.sub_add_cancel (List.length_pos_of_ne_nil p.spelling_ne_nil),
      List.drop_left]
  cases htext : p.spelling ++ rest with
  | nil => simp [spelling] at htext
  | cons c cs =>
    rw [htext] at hstart hdrop
    rw [expandFrom, hstart]
    dsimp only
    rw [expandFrom_drop]
    congr 1
    exact congrArg _ hdrop

theorem expandFrom_of_none (h : atStart? (c :: cs) = none) :
    expandFrom env 0 (c :: cs) = c :: expandFrom env 0 cs := by
  rw [expandFrom, h]

theorem Leads.tail (h : Leads (c :: x) rest) : Leads x rest := by
  intro q before after hq heq
  have := h q (c :: before) after hq (by rw [List.cons_append, heq]; simp)
  simpa using this

theorem Leads.atStart? (h : Leads (c :: x) rest) : atStart? (c :: x ++ rest) = none := by
  refine atStart?_eq_none fun q hq hspelled => ?_
  obtain ⟨after, hafter⟩ := hspelled
  have := h q [] after hq (by rw [← hafter]; simp)
  simp at this

/-- What comes before the first placeholder stays. -/
theorem expandFrom_of_leads (env : Environment) (h : Leads x rest) :
    expandFrom env 0 (x ++ rest) = x ++ expandFrom env 0 rest := by
  induction x with
  | nil => rfl
  | cons c x ih =>
    have hnone := h.atStart?
    rw [List.cons_append] at hnone ⊢
    rw [expandFrom_of_none hnone, ih h.tail]
    rfl

theorem leads_of_free (h : Free x) : Leads x [] := by
  intro q before after hq heq
  rw [List.append_nil] at heq
  exact absurd heq (h q before after hq)

theorem expandFrom_of_free (h : Free x) : expandFrom env 0 x = x := by
  have := expandFrom_of_leads env (leads_of_free h)
  rwa [List.append_nil, expandFrom, List.append_nil] at this

/-- A text without a placeholder is free of them, and in any other text there is a first one. -/
theorem free_or_leads (cs : List Char) :
    Free cs ∨ ∃ x, ∃ p : Placeholder, ∃ y,
      p.IsWritten ∧ cs = x ++ p.spelling ++ y ∧ Leads x (p.spelling ++ y) := by
  induction cs with
  | nil =>
    left
    intro q before after _ heq
    simp [spelling] at heq
  | cons c cs ih =>
    by_cases hstart : ∃ q : Placeholder, q.IsWritten ∧ q.spelling <+: c :: cs
    · obtain ⟨q, hq, rest, hrest⟩ := hstart
      exact .inr ⟨[], q, rest, hq, by rw [← hrest]; rfl, fun _ _ _ _ _ => Nat.zero_le _⟩
    -- nothing begins at the first character, so all that begins does so in the rest
    have hnot : ∀ (q : Placeholder) (before after : List Char), q.IsWritten →
        c :: cs = before ++ q.spelling ++ after →
        ∃ before', before = c :: before' ∧ cs = before' ++ q.spelling ++ after := by
      intro q before after hq heq
      cases before with
      | nil => exact absurd ⟨q, hq, after, heq.symm⟩ hstart
      | cons b before =>
        simp only [List.cons_append, List.cons.injEq] at heq
        exact ⟨before, by rw [heq.1], heq.2⟩
    rcases ih with hfree | ⟨x, p, y, hp, rfl, hleads⟩
    · left
      intro q before after hq heq
      obtain ⟨before', -, hcs⟩ := hnot q before after hq heq
      exact hfree q before' after hq hcs
    · refine .inr ⟨c :: x, p, y, hp, by simp, ?_⟩
      intro q before after hq heq
      rw [List.cons_append, ← List.append_assoc] at heq
      obtain ⟨before', rfl, hcs⟩ := hnot q before after hq heq
      rw [List.append_assoc] at hcs
      simpa using hleads q before' after hq hcs

/-- Behind each dollar sign there is a closing brace. -/
def Closed (x : List Char) : Prop := ∀ before after, x = before ++ '$' :: after → '}' ∈ after

theorem Closed.of_append (h : Closed (x ++ y)) : Closed y :=
  fun before after heq => h (x ++ before) after (by rw [heq, List.append_assoc])

theorem closed_of_rtakeWhile (h : '$' ∉ x.rtakeWhile (· != '}')) : Closed x := by
  rintro before after rfl
  by_contra hbrace
  have hall : ∀ c ∈ '$' :: after, (c != '}') = true := by
    intro c hc
    simp only [bne_iff_ne]
    rintro rfl
    rcases List.mem_cons.1 hc with h' | h'
    · cases h'
    · exact hbrace h'
  have hsuffix : '$' :: after <:+ (before ++ '$' :: after).rtakeWhile (· != '}') := by
    rw [List.rtakeWhile, List.reverse_append,
      List.takeWhile_append_of_pos fun c hc => hall c (List.mem_reverse.1 hc),
      List.reverse_append, List.reverse_reverse]
    exact List.suffix_append _ _
  exact h (hsuffix.subset List.mem_cons_self)

/-- A placeholder that begins in a text with a closing brace further on ends in it. -/
theorem spelling_prefix_of_closed (hp : p.IsWritten) (hx : x ≠ []) (h : Closed x)
    (hspelled : p.spelling <+: x ++ y) : p.spelling <+: x := by
  rcases List.prefix_or_prefix_of_prefix hspelled (List.prefix_append x y) with hin | ⟨t, ht⟩
  · exact hin
  cases t with
  | nil => exact ⟨[], by rw [← ht, List.append_nil, List.append_nil]⟩
  | cons b t =>
    -- the text would end within the placeholder, with a dollar sign and no brace behind it
    have hbrace : '}' ∉ x := by
      intro hmem
      refine hp.brace_notMem_dropLast ?_
      rw [← ht, List.dropLast_append_of_ne_nil (List.cons_ne_nil b t)]
      exact List.mem_append_left _ hmem
    cases x with
    | nil => exact absurd rfl hx
    | cons c x =>
      have hdollar : c = '$' := (List.cons.inj ht).1
      subst hdollar
      exact absurd (List.mem_cons_of_mem _ (h [] x rfl)) hbrace

/-- No placeholder that begins in the text `x` reaches into `rest`. -/
def Apart (x rest : List Char) : Prop :=
  ∀ (q : Placeholder) (before after : List Char), q.IsWritten →
    x ++ rest = before ++ q.spelling ++ after →
    x.length ≤ before.length ∨ (before ++ q.spelling).length ≤ x.length

theorem Apart.of_append (h : Apart (x ++ y) rest) : Apart y rest := by
  intro q before after hq heq
  have hlength := h q (x ++ before) after hq (by rw [List.append_assoc, heq]; simp)
  simp only [List.length_append] at hlength ⊢
  omega

theorem Apart.spelling_prefix (hp : p.IsWritten) (hx : x ≠ []) (h : Apart x rest)
    (hspelled : p.spelling <+: x ++ rest) : p.spelling <+: x := by
  obtain ⟨after, hafter⟩ := hspelled
  refine List.prefix_of_prefix_length_le ⟨after, hafter⟩ (List.prefix_append x rest) ?_
  rcases h p [] after hp (by rw [← hafter]; rfl) with hle | hle
  · exact absurd (List.length_eq_zero_iff.1 (Nat.le_zero.1 hle)) hx
  · exact hle

theorem Closed.apart (h : Closed x) (rest : List Char) : Apart x rest := by
  intro q before after hq heq
  by_contra hlength
  simp only [not_or, not_le] at hlength
  -- the placeholder begins in the text, so it has to end there as well
  obtain ⟨x', rfl⟩ : before <+: x :=
    List.prefix_of_prefix_length_le ⟨_, by rw [heq, List.append_assoc]⟩ (List.prefix_append x rest)
      hlength.1.le
  have hx' : x' ≠ [] := by
    rintro rfl
    simp at hlength
  rw [List.append_assoc, List.append_assoc, List.append_cancel_left_eq] at heq
  have hle := (spelling_prefix_of_closed hq hx' h.of_append ⟨after, heq.symm⟩).length_le
  simp only [List.length_append] at hlength
  omega

/-- Texts are expanded one by one where no placeholder reaches from the first into the second. -/
theorem expandFrom_append (env : Environment) (h : Apart x y) :
    expandFrom env 0 (x ++ y) = expandFrom env 0 x ++ expandFrom env 0 y := by
  induction hn : x.length using Nat.strong_induction_on generalizing x with
  | _ n ih =>
    cases x with
    | nil => rfl
    | cons c x =>
      subst hn
      by_cases hstart : ∃ q : Placeholder, q.IsWritten ∧ q.spelling <+: c :: x ++ y
      · obtain ⟨q, hq, hspelled⟩ := hstart
        obtain ⟨rest, hrest⟩ := h.spelling_prefix hq (List.cons_ne_nil c x) hspelled
        rw [← hrest] at h ⊢
        have hlt : rest.length < (c :: x).length := by
          rw [← hrest, List.length_append]
          exact Nat.lt_add_of_pos_left (List.length_pos_of_ne_nil q.spelling_ne_nil)
        rw [List.append_assoc, expandFrom_spelling env hq, expandFrom_spelling env hq,
          ih _ hlt h.of_append rfl, List.append_assoc]
      · have hnone : atStart? (c :: (x ++ y)) = none :=
          atStart?_eq_none fun q hq hspelled => hstart ⟨q, hq, hspelled⟩
        have hnone' : atStart? (c :: x) = none :=
          atStart?_eq_none fun q hq hspelled =>
            hstart ⟨q, hq, hspelled.trans (List.prefix_append _ _)⟩
        rw [List.cons_append, expandFrom_of_none hnone, expandFrom_of_none hnone',
          ih x.length (Nat.lt_succ_self _) (Apart.of_append (x := [c]) h) rfl]
        rfl

/-- A placeholder in a text gives way to its value, if no other one reaches into it. -/
theorem expand_spelling {before after : String} (hp : p.IsWritten)
    (happart : Apart before.toList (p.spelling ++ after.toList)) :
    (expand env (before ++ String.ofList p.spelling ++ after)).toList =
      (expand env before).toList ++ (p.value env ++ (expand env after).toList) := by
  have htext : (before ++ String.ofList p.spelling ++ after).toList =
      before.toList ++ (p.spelling ++ after.toList) := by
    simp
  simp only [expand, String.toList_ofList]
  rw [htext, expandFrom_append env happart, expandFrom_spelling env hp]

theorem ofList_value (env : Environment) (p : Placeholder) :
    String.ofList (p.value env) = ((env.lookup (String.ofList p.name)).bind Text.Utf8.decode?).getD
      (String.ofList (p.fallback.getD [])) := by
  unfold value Environment.get?
  cases (env.lookup (String.ofList p.name)).bind Text.Utf8.decode? with
  | none => rfl
  | some v => exact String.ofList_toList

theorem expand_of_leads {env : Environment} {x y : String} {p : Placeholder} (hp : p.IsWritten)
    (hleads : Leads x.toList (p.spelling ++ y.toList)) :
    expand env (x ++ String.ofList p.spelling ++ y) =
      x ++ ((env.lookup (String.ofList p.name)).bind Text.Utf8.decode?).getD
        (String.ofList (p.fallback.getD [])) ++ expand env y := by
  have htext : (x ++ String.ofList p.spelling ++ y).toList =
      x.toList ++ (p.spelling ++ y.toList) := by
    simp
  rw [expand, htext, expandFrom_of_leads env hleads, expandFrom_spelling env hp, ← ofList_value,
    expand]
  simp [String.ofList_append, String.append_assoc]

end Placeholder

open Placeholder

/-- Expansion goes once through a text. A text without a placeholder stays as it is. In any other
there is a first one, and what comes before it stays, the variable's value comes in its place, or else
its default, or else nothing, and what comes behind it is expanded by itself. Two texts that follow one
another are expanded one by one if no dollar sign comes behind the last closing brace of the first. A
variable that is set to the bytes of a text has that text as its value. -/
theorem expand_onePass (env : Environment) :
    (∀ text : String, Free text.toList → expand env text = text) ∧
    (∀ text : String, ¬ Free text.toList → ∃ x, ∃ p : Placeholder, ∃ y, p.IsWritten ∧
      text = x ++ String.ofList p.spelling ++ y ∧ Leads x.toList (p.spelling ++ y.toList)) ∧
    (∀ (x y : String) (p : Placeholder), p.IsWritten → Leads x.toList (p.spelling ++ y.toList) →
      expand env (x ++ String.ofList p.spelling ++ y) =
        x ++ ((env.lookup (String.ofList p.name)).bind Text.Utf8.decode?).getD
          (String.ofList (p.fallback.getD [])) ++ expand env y) ∧
    (∀ x y : String, '$' ∉ x.toList.rtakeWhile (· != '}') →
      expand env (x ++ y) = expand env x ++ expand env y) ∧
    (∀ (x y value : String) (p : Placeholder), p.IsWritten →
      Leads x.toList (p.spelling ++ y.toList) →
        env.lookup (String.ofList p.name) = some (Text.Utf8.encode value) →
          expand env (x ++ String.ofList p.spelling ++ y) = x ++ value ++ expand env y) := by
  refine ⟨fun text hfree => ?_, fun text hfree => ?_, fun _ _ _ => expand_of_leads,
    fun x y hx => ?_, fun x y value p hp hleads hset => ?_⟩
  · rw [expand, expandFrom_of_free hfree, String.ofList_toList]
  · obtain ⟨x, p, y, hp, htext, hleads⟩ := (free_or_leads text.toList).resolve_left hfree
    refine ⟨String.ofList x, p, String.ofList y, hp, ?_, by simpa using hleads⟩
    rw [← String.ofList_toList (s := text), htext, String.ofList_append, String.ofList_append]
  · rw [expand, expand, expand, String.toList_append,
      expandFrom_append env ((closed_of_rtakeWhile hx).apart _), String.ofList_append]
  · rw [expand_of_leads hp hleads, hset, Option.bind_some, Text.Utf8.decode?_encode, Option.getD_some]

/-- A default may hold the beginning of a placeholder and ends at the first closing brace, and a value
may be a placeholder to the eye. Neither is looked at again. -/
theorem expand_nestedDefault :
    let p : Placeholder := ⟨['A'], some ['$', '{', 'B'], 0⟩
    let env : Environment :=
      [("A", Text.Utf8.encode "$\x7bB:\u00e9\x7d"), ("B", Text.Utf8.encode "b")]
    p.IsWritten ∧ Leads ['$'] (p.spelling ++ ['}']) ∧
      expand [] ("$" ++ String.ofList p.spelling ++ "\x7d") = "$$\x7bB\x7d" ∧
      expand env ("$" ++ String.ofList p.spelling ++ "\x7d") = "$$\x7bB:\u00e9\x7d\x7d" ∧
      expand env ("$\x7d" ++ "$\x7bB\x7d") = expand env "$\x7d" ++ expand env "$\x7bB\x7d" := by
  intro p env
  have hword : (p.name.all Text.isWord) = true := by decide +kernel
  have hp : p.IsWritten :=
    ⟨List.cons_ne_nil _ _, List.all_eq_true.1 hword, by rintro _ ⟨⟩; decide⟩
  have hleads : Leads "$".toList (p.spelling ++ "\x7d".toList) := by
    intro q before after _ heq
    cases before with
    | nil => cases heq
    | cons => exact Nat.succ_le_succ (Nat.zero_le _)
  have hbrace : Free "\x7d".toList := by
    intro q before after _ heq
    have := congrArg List.length heq
    simp [spelling] at this
    omega
  have hexpand (env : Environment) := (expand_onePass env).2.2.1 _ _ p hp hleads
  refine ⟨hp, hleads, ?_, ?_, (expand_onePass env).2.2.2.1 _ _ (by decide +kernel)⟩
  · rw [hexpand, (expand_onePass []).1 _ hbrace]
    decide +kernel
  · rw [hexpand, (expand_onePass env).1 _ hbrace]
    decide +kernel

end TokenKeeper
