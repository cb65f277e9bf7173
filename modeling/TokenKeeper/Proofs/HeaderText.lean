import TokenKeeper.Http.Headers
import TokenKeeper.Proofs.Utf8

/-!
# Texts in headers

A header's value is a row of bytes, and only a visible one has a text. Bytes of ASCII and their
characters correspond one to one, so the value and its text determine each other: the text is
written with exactly the bytes it was read from (`Http.visibleText?_eq_some_iff`). The other way about,
a text makes a value unless one of its bytes is a control (`Http.headerValue?_eq_some_iff`).
-/

namespace TokenKeeper

namespace Http

theorem isVisible_iff {b : UInt8} : isVisible b = true ↔ b = 9 ∨ (32 ≤ b ∧ b < 127) := by
  simp [isVisible]

theorem ascii_of_visible {value : Bytes} (h : ∀ b ∈ value, isVisible b = true) :
    ∀ b ∈ value, b.toNat < 0x80 := by
  intro b hb
  rcases isVisible_iff.1 (h b hb) with rfl | ⟨-, hb⟩
  · decide
  · exact Nat.lt_trans (UInt8.lt_iff_toNat_lt.1 hb) (by decide)

/-- A visible value has the text whose bytes it is; no other value has one. -/
theorem visibleText?_eq_some_iff {value : Bytes} {s : String} :
    visibleText? value = some s ↔
      value = Text.Utf8.encode s ∧ ∀ b ∈ value, b = 9 ∨ (32 ≤ b ∧ b < 127) := by
  simp only [← isVisible_iff]
  unfold visibleText?
  rw [← List.all_eq_true]
  constructor
  · intro h
    split at h
    · next hv =>
      have hascii := ascii_of_visible (List.all_eq_true.1 hv)
      rw [← Option.some.inj h, Text.Utf8.encode_decodeLossy_of_ascii hascii]
      exact ⟨rfl, hv⟩
    · cases h
  · rintro ⟨rfl, hv⟩
    rw [if_pos hv, Text.Utf8.decodeLossy_encode]

theorem Headers.first?_eq_some_iff {hs : Headers} {name : String} {value : Bytes} :
    hs.first? name = some value ↔ ∃ before sensitive after,
      hs = before ++ ⟨name, value, sensitive⟩ :: after ∧ ∀ h ∈ before, h.name ≠ name := by
  simp only [first?, Option.map_eq_some_iff, List.find?_eq_some_iff_append, beq_iff_eq,
    Bool.not_eq_true', beq_eq_false_iff_ne]
  constructor
  · rintro ⟨⟨_, _, sensitive⟩, ⟨rfl, before, after, rfl, hbefore⟩, rfl⟩
    exact ⟨before, sensitive, after, rfl, hbefore⟩
  · rintro ⟨before, sensitive, after, rfl, hbefore⟩
    exact ⟨⟨name, value, sensitive⟩, ⟨rfl, before, after, rfl, hbefore⟩, rfl⟩

/-- A byte that may not stand in a header: a control other than the tab. -/
def IsControl (b : UInt8) : Prop := (b < 32 ∧ b ≠ 9) ∨ b = 127

theorem isLegal_eq_false_iff {b : UInt8} : isLegal b = false ↔ IsControl b := by
  have hlow : ¬ (32 ≤ b) ↔ b < 32 := UInt8.not_le
  have h127 : ¬ (127 : UInt8) < 32 := by decide
  simp only [isLegal, IsControl, Bool.or_eq_false_iff, beq_eq_false_iff_ne, Bool.and_eq_false_iff,
    decide_eq_false_iff_not, hlow, bne_eq_false_iff_eq]
  constructor
  · rintro ⟨hne, h | h⟩
    · exact .inl ⟨h, hne⟩
    · exact .inr h
  · rintro (⟨h, hne⟩ | rfl)
    · exact ⟨hne, .inl h⟩
    · exact ⟨by decide, .inr rfl⟩

theorem headerValue?_eq_none_iff {s : String} :
    headerValue? s = none ↔ ∃ b ∈ Text.Utf8.encode s, IsControl b := by
  simp only [← isLegal_eq_false_iff]
  unfold headerValue?
  dsimp only
  split
  · next h =>
    refine ⟨fun h' => (nomatch h'), ?_⟩
    rintro ⟨b, hb, hcontrol⟩
    rw [List.all_eq_true.1 h b hb] at hcontrol
    cases hcontrol
  · next h => simpa using h

theorem headerValue?_eq_some_iff {s : String} {value : Bytes} :
    headerValue? s = some value ↔
      value = Text.Utf8.encode s ∧ ∀ b ∈ Text.Utf8.encode s, ¬ IsControl b := by
  have hlegal : ∀ b, ¬ IsControl b ↔ isLegal b = true := by
    intro b
    rw [← isLegal_eq_false_iff, Bool.not_eq_false]
  simp only [hlegal]
  unfold headerValue?
  rw [← List.all_eq_true]
  dsimp only
  split
  · next h => simp [h, eq_comm]
  · next h => simp [h]

theorem not_isControl_of_visible {b : UInt8} (h : b = 9 ∨ (32 ≤ b ∧ b < 127)) : ¬ IsControl b := by
  have hlow : 32 ≤ b → ¬ b < 32 := UInt8.not_lt.2
  rintro (⟨hlt, hne⟩ | rfl)
  · rcases h with h | h
    · exact hne h
    · exact hlow h.1 hlt
  · revert h; decide

end Http

end TokenKeeper
