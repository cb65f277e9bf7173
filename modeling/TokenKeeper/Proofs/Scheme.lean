import Mathlib.Data.List.DropRight
import TokenKeeper.Auth.Address
import TokenKeeper.Proofs.Outcome
import TokenKeeper.Text.Blank
import TokenKeeper.Url.Parse

/-!
# The scheme that a text of a url comes to

A text that begins with blanks, `http` or `https`, and a colon is a url of just that scheme if it is a
url at all (`Spelled.parse_scheme`): blanks below the space do not count, and any others keep the text
from being a url. Bringing the text to TLS changes the scheme only where no blank comes before it, for
the text itself is looked at and not the url it stands for.
-/

namespace TokenKeeper

theorem rdropWhile_append_cons {α : Type} (p : α → Bool) (before : List α) {c : α}
    (hc : p c = false) (after : List α) :
    (before ++ c :: after).rdropWhile p = before ++ c :: after.rdropWhile p := by
  induction after using List.reverseRecOn with
  | nil => rw [List.rdropWhile_concat_neg p before c (by simp [hc])]; simp
  | append_singleton after x ih =>
    rw [show before ++ c :: (after ++ [x]) = (before ++ c :: after) ++ [x] by simp,
      List.rdropWhile_concat, List.rdropWhile_concat]
    split
    · exact ih
    · simp

namespace Url

theorem afterSlashes_scheme {scheme s : List Char} {u : Url} (h : afterSlashes scheme s = .ok u) :
    u.scheme = scheme := by
  simp only [afterSlashes] at h
  split at h
  · obtain ⟨host, -, h⟩ := bind_eq_ok_iff.1 h
    obtain ⟨port, -, h⟩ := bind_eq_ok_iff.1 h
    rw [← Except.ok.inj h]
  split at h
  · exact nomatch h
  · obtain ⟨host, -, h⟩ := bind_eq_ok_iff.1 h
    obtain ⟨port, -, h⟩ := bind_eq_ok_iff.1 h
    rw [← Except.ok.inj h]

/-- The schemes that the identity service may be reached by. -/
def isServiceScheme (scheme : List Char) : Prop := scheme = "http".toList ∨ scheme = "https".toList

theorem afterScheme_scheme {scheme s : List Char} {u : Url} (hs : isServiceScheme scheme)
    (h : afterScheme scheme s = .ok u) : u.scheme = scheme := by
  have hfile : (scheme == fileScheme) = false := by rcases hs with rfl | rfl <;> decide
  have hhost : needsHost scheme = true := by rcases hs with rfl | rfl <;> decide
  simp only [afterScheme, hfile, hhost, Bool.false_eq_true, ↓reduceIte] at h
  exact afterSlashes_scheme h

theorem splitScheme?_service {scheme : List Char} (hs : isServiceScheme scheme) (rest : List Char) :
    splitScheme? (scheme ++ ':' :: rest) = some (scheme, rest) := by
  rcases hs with rfl | rfl <;> rfl

/-- A blank that is dropped at the ends of the text of a url. -/
def isDropped (c : Char) : Bool := c.toNat ≤ 0x20

/-- What counts within the text of a url. -/
def isText (c : Char) : Bool := c != '\t' && c != '\n' && c != '\r'

theorem clean_eq (s : List Char) :
    clean s = ((s.dropWhile isDropped).rdropWhile isDropped).filter isText := rfl

theorem clean_of_dropped {blanks scheme : List Char} (hb : ∀ c ∈ blanks, isDropped c = true)
    (hs : isServiceScheme scheme) (rest : List Char) :
    ∃ rest', clean (blanks ++ scheme ++ ':' :: rest) = scheme ++ ':' :: rest' := by
  have hdrop : (scheme ++ ':' :: rest).dropWhile isDropped = scheme ++ ':' :: rest := by
    rcases hs with rfl | rfl <;> rfl
  have hfilter : scheme.filter isText = scheme := by rcases hs with rfl | rfl <;> decide
  refine ⟨(rest.rdropWhile isDropped).filter isText, ?_⟩
  rw [clean_eq, List.append_assoc, List.dropWhile_append_of_pos hb, hdrop,
    rdropWhile_append_cons isDropped scheme (by decide), List.filter_append, hfilter]
  rfl

theorem isText_of_not_isDropped {c : Char} (h : isDropped c = false) : isText c = true := by
  have hne : ∀ d, isDropped d = true → c ≠ d := by rintro d hd rfl; rw [h] at hd; cases hd
  simp only [isText, Bool.and_eq_true, bne_iff_ne]
  exact ⟨⟨hne _ (by decide), hne _ (by decide)⟩, hne _ (by decide)⟩

/-- A blank that is not dropped stays in front. -/
theorem clean_of_kept {blanks : List Char} (hb : ∃ c ∈ blanks, isDropped c = false) (s : List Char) :
    ∃ c ∈ blanks, isDropped c = false ∧ ∃ rest, clean (blanks ++ s) = c :: rest := by
  induction blanks with
  | nil => obtain ⟨_, h, -⟩ := hb; cases h
  | cons b blanks ih =>
    cases hd : isDropped b with
    | true =>
      have hb : ∃ c ∈ blanks, isDropped c = false := by
        obtain ⟨c, hc, hk⟩ := hb
        rcases List.mem_cons.1 hc with rfl | hc
        · rw [hd] at hk; cases hk
        · exact ⟨c, hc, hk⟩
      obtain ⟨c, hc, hk, rest, h⟩ := ih hb
      refine ⟨c, List.mem_cons_of_mem _ hc, hk, rest, ?_⟩
      rw [clean_eq, List.cons_append, List.dropWhile_cons_of_pos hd, ← clean_eq, h]
    | false =>
      refine ⟨b, List.mem_cons_self, hd, ((blanks ++ s).rdropWhile isDropped).filter isText, ?_⟩
      rw [clean_eq, List.cons_append, List.dropWhile_cons_of_neg (by simp [hd]),
        ← List.nil_append (b :: _), rdropWhile_append_cons isDropped [] hd, List.nil_append,
        List.filter_cons_of_pos (isText_of_not_isDropped hd)]

/-- The blanks that are not dropped lie beyond ASCII. -/
theorem toNat_of_kept {c : Char} (hc : Text.isBlank c = true) (hk : isDropped c = false) :
    0x80 ≤ c.toNat := by
  simp only [isDropped, decide_eq_false_iff_not] at hk
  simp only [Text.isBlank, Text.inRanges, Bool.or_eq_true, Bool.and_eq_true, List.any_eq_true,
    beq_iff_eq, decide_eq_true_eq] at hc
  rcases hc with (hc | hc) | ⟨r, hr, hc⟩
  · omega
  · omega
  · revert r; simp [Text.blankRanges]; omega

theorem isAlphanum_of_high {c : Char} (h : 0x80 ≤ c.toNat) : c.isAlphanum = false := by
  have hbelow : ∀ high : Char, high.toNat < 0x80 → ¬ c.val ≤ high.val := by
    intro high hlow hle
    have : c.toNat ≤ high.toNat := UInt32.le_iff_toNat_le.1 hle
    omega
  have hupper : c.isUpper = false := decide_eq_false fun h => hbelow 'Z' (by decide) h.2
  have hlower : c.isLower = false :=
    Bool.and_eq_false_iff.2 (.inr (decide_eq_false (hbelow 'z' (by decide))))
  have hdigit : c.isDigit = false :=
    Bool.and_eq_false_iff.2 (.inr (decide_eq_false (hbelow '9' (by decide))))
  show (c.isUpper || c.isLower || c.isDigit) = false
  rw [hupper, hlower, hdigit]
  rfl

/-- No url begins with a blank that is not dropped. -/
theorem splitScheme?_of_kept {c : Char} (hc : Text.isBlank c = true) (hk : isDropped c = false)
    (rest : List Char) : splitScheme? (c :: rest) = none := by
  have hhigh := toNat_of_kept hc hk
  have hne : ∀ d : Char, d.toNat < 0x80 → c ≠ d := by rintro d hd rfl; omega
  have hpart : (c.isAlphanum || c == '+' || c == '-' || c == '.') = false := by
    simp [isAlphanum_of_high hhigh, hne '+' (by decide), hne '-' (by decide), hne '.' (by decide)]
  unfold splitScheme?
  simp only [List.takeWhile_cons, hpart]
  rfl

end Url

theorem toList_dropTrailingSlashes (url : String) :
    (dropTrailingSlashes url).toList = url.toList.rdropWhile (· == '/') := by
  unfold dropTrailingSlashes
  rw [String.toList_ofList]
  rfl

/-- A text of a url with the blanks it begins with and the scheme behind them. -/
structure Spelled (url : String) (blanks scheme : List Char) : Prop where
  isBlank : ∀ c ∈ blanks, Text.isBlank c = true
  isService : Url.isServiceScheme scheme
  text : ∃ rest, url.toList = blanks ++ scheme ++ ':' :: rest

namespace Spelled
variable {url : String} {blanks scheme : List Char}

/-- If the text is a url, then of the scheme it spells. -/
theorem parse_scheme (h : Spelled url blanks scheme) {u : Url} (hu : Url.parse url = .ok u) :
    u.scheme = scheme := by
  obtain ⟨rest, htext⟩ := h.text
  unfold Url.parse at hu
  rw [htext] at hu
  by_cases hb : ∃ c ∈ blanks, Url.isDropped c = false
  · rw [List.append_assoc] at hu
    obtain ⟨c, hc, hk, rest', hclean⟩ := Url.clean_of_kept hb (scheme ++ ':' :: rest)
    rw [hclean, Url.splitScheme?_of_kept (h.isBlank c hc) hk] at hu
    cases hu
  · have hb : ∀ c ∈ blanks, Url.isDropped c = true := by
      intro c hc
      exact Bool.not_eq_false _ ▸ fun hk => hb ⟨c, hc, hk⟩
    obtain ⟨rest', hclean⟩ := Url.clean_of_dropped hb h.isService rest
    rw [hclean, Url.splitScheme?_service h.isService] at hu
    exact Url.afterScheme_scheme h.isService hu

theorem ne_of_cons {b : Char} (h : Spelled url (b :: blanks) scheme) : b ≠ 'h' := by
  rintro rfl
  exact absurd (h.isBlank _ List.mem_cons_self) (by decide)

theorem joinUrl (h : Spelled url blanks scheme) (suffix : String) :
    Spelled (joinUrl url suffix) blanks scheme := by
  obtain ⟨rest, htext⟩ := h.text
  refine ⟨h.isBlank, h.isService, rest.rdropWhile (· == '/') ++ '/' :: suffix.toList, ?_⟩
  unfold TokenKeeper.joinUrl
  rw [String.toList_append, String.toList_append, toList_dropTrailingSlashes, htext,
    rdropWhile_append_cons (· == '/') _ (by decide)]
  simp

/-- The scheme that is spelled once the text is brought to TLS: a blank in front hides what is there,
for the text is looked at and not the url it stands for. -/
theorem secureScheme (h : Spelled url blanks scheme) :
    Spelled (secureScheme url) blanks (if blanks = [] then "https".toList else scheme) := by
  obtain ⟨rest, htext⟩ := h.text
  cases blanks with
  | nil =>
    refine ⟨h.isBlank, .inr rfl, rest, ?_⟩
    unfold TokenKeeper.secureScheme
    rcases h.isService with rfl | rfl <;> simp [htext]
  | cons b blanks =>
    have hsame : TokenKeeper.secureScheme url = url := by
      unfold TokenKeeper.secureScheme
      rw [htext]
      split
      · rfl
      · next heq => exact absurd (List.cons.inj heq).1 h.ne_of_cons
      · rfl
    rw [hsame, if_neg (List.cons_ne_nil b blanks)]
    exact h

end Spelled

end TokenKeeper
