import Mathlib.Tactic.SplitIfs
import TokenKeeper.Text.Utf8

/-!
# Bytes and the texts they spell

Reading goes byte by byte, so a text is read back if each of its characters is: the first byte tells how
many follow and within which bounds the next one lies (`lead_two`, `lead_three`, `lead_four`), and the
others add six bits each (`scan_pending`). So the bytes of a text have that text and no other
(`decode?_encode`, `decodeLossy_encode`). Bytes of ASCII and their characters correspond one to one.
-/

namespace TokenKeeper

namespace Text.Utf8

theorem lead_of_ascii {b : UInt8} (h : b.toNat < 0x80) : lead b = .whole (Char.ofNat b.toNat) := by
  unfold lead
  rw [if_pos h]

theorem scan_of_ascii {bs : Bytes} (h : ∀ b ∈ bs, b.toNat < 0x80) :
    scan none bs = bs.map fun b => some (Char.ofNat b.toNat) := by
  induction bs with
  | nil => rfl
  | cons b bs ih =>
    rw [scan, lead_of_ascii (h b List.mem_cons_self), List.map_cons,
      ← ih fun b hb => h b (List.mem_cons_of_mem _ hb)]

theorem decodeLossy_of_ascii {bs : Bytes} (h : ∀ b ∈ bs, b.toNat < 0x80) :
    decodeLossy bs = String.ofList (bs.map fun b => Char.ofNat b.toNat) := by
  unfold decodeLossy
  rw [scan_of_ascii h, List.map_map]
  rfl

theorem encodeChar_of_ascii {c : Char} (h : c.toNat < 0x80) : encodeChar c = [c.toNat.toUInt8] := by
  unfold encodeChar
  rw [if_pos h]

theorem toNat_toUInt8 {n : Nat} (h : n < 0x100) : n.toUInt8.toNat = n :=
  Nat.mod_eq_of_lt h

theorem encode_of_ascii {s : String} (h : ∀ c ∈ s.toList, c.toNat < 0x80) :
    encode s = s.toList.map fun c => c.toNat.toUInt8 := by
  unfold encode
  generalize s.toList = cs at h ⊢
  induction cs with
  | nil => rfl
  | cons c cs ih =>
    rw [List.flatMap_cons, encodeChar_of_ascii (h c List.mem_cons_self),
      ih fun c hc => h c (List.mem_cons_of_mem _ hc)]
    rfl

theorem encode_decodeLossy_of_ascii {bs : Bytes} (h : ∀ b ∈ bs, b.toNat < 0x80) :
    encode (decodeLossy bs) = bs := by
  have hnat : ∀ b ∈ bs, (Char.ofNat b.toNat).toNat = b.toNat := by
    intro b hb
    have hv : b.toNat.isValidChar := .inl (Nat.lt_trans (h b hb) (by decide))
    unfold Char.ofNat
    rw [dif_pos hv]
    rfl
  rw [decodeLossy_of_ascii h, encode_of_ascii, String.toList_ofList, List.map_map]
  · have hid : bs.map ((fun c : Char => c.toNat.toUInt8) ∘ fun b => Char.ofNat b.toNat) =
        bs.map id := by
      refine List.map_congr_left fun b hb => ?_
      rw [Function.comp_apply, hnat b hb]
      exact UInt8.ofNat_toNat
    rw [hid, List.map_id]
  · rw [String.toList_ofList]
    intro c hc
    obtain ⟨b, hb, rfl⟩ := List.mem_map.1 hc
    rw [hnat b hb]
    exact h b hb

/-- A byte within the bounds ends a pending character or leaves it pending with one byte less to come. -/
theorem scan_pending {p : Pending} {n : Nat} (hn : n < 0x100) (hlow : p.low ≤ n) (hhigh : n ≤ p.high)
    (bs : Bytes) :
    scan (some p) (n.toUInt8 :: bs) =
      if p.left ≤ 1 then some (Char.ofNat (p.bits * 64 + n % 64)) :: scan none bs
      else scan (some ⟨p.bits * 64 + n % 64, p.left - 1, 0x80, 0xBF⟩) bs := by
  have hbounds : (decide (p.low ≤ n) && decide (n ≤ p.high)) = true := by simp [hlow, hhigh]
  rw [scan, toNat_toUInt8 hn, if_pos hbounds]

/-- A byte that continues a character and is the last one to come. -/
theorem scan_last {bits low high n : Nat} (hlow : low ≤ 0x80 + n % 64) (hhigh : 0x80 + n % 64 ≤ high)
    (bs : Bytes) :
    scan (some ⟨bits, 1, low, high⟩) ((0x80 + n % 64).toUInt8 :: bs) =
      some (Char.ofNat (bits * 64 + n % 64)) :: scan none bs := by
  have hbits : (0x80 + n % 64) % 64 = n % 64 := by omega
  rw [scan_pending (by omega) hlow hhigh, if_pos (Nat.le_refl 1), hbits]

/-- A byte that continues a character and is not the last one to come. -/
theorem scan_more {bits left low high n : Nat} (hlow : low ≤ 0x80 + n % 64)
    (hhigh : 0x80 + n % 64 ≤ high) (bs : Bytes) :
    scan (some ⟨bits, left + 2, low, high⟩) ((0x80 + n % 64).toUInt8 :: bs) =
      scan (some ⟨bits * 64 + n % 64, left + 1, 0x80, 0xBF⟩) bs := by
  have hbits : (0x80 + n % 64) % 64 = n % 64 := by omega
  rw [scan_pending (by omega) hlow hhigh, if_neg (by simp), hbits]
  rfl

theorem scan_of_opens {b : UInt8} {p : Pending} (h : lead b = .opens p) (bs : Bytes) :
    scan none (b :: bs) = scan (some p) bs := by
  rw [scan, h]

theorem lead_two {n : Nat} (h : 0x80 ≤ n) (h' : n < 0x800) :
    lead (0xC0 + n / 64).toUInt8 = .opens ⟨n / 64, 1, 0x80, 0xBF⟩ := by
  unfold lead
  rw [toNat_toUInt8 (by omega)]
  dsimp only
  rw [if_neg (by omega), if_neg (by omega), if_pos (by omega), Nat.add_sub_cancel_left]

/-- The bounds of the second byte let every character of three bytes through that is none of the
surrogates. -/
theorem lead_three {n : Nat} (h : 0x800 ≤ n) (h' : n < 0x10000) (hn : n < 0xD800 ∨ 0xDFFF < n) :
    ∃ low high, lead (0xE0 + n / 4096).toUInt8 = .opens ⟨n / 4096, 2, low, high⟩ ∧
      low ≤ 0x80 + n / 64 % 64 ∧ 0x80 + n / 64 % 64 ≤ high := by
  unfold lead
  rw [toNat_toUInt8 (by omega)]
  dsimp only
  rw [if_neg (by omega), if_neg (by omega), if_neg (by omega), Nat.add_sub_cancel_left]
  split
  · exact ⟨_, _, by rw [show n / 4096 = 0 by omega], by omega, by omega⟩
  · split
    · exact ⟨_, _, by rw [show n / 4096 = 0xD by omega], by omega, by omega⟩
    · rw [if_pos (by omega)]
      exact ⟨_, _, rfl, by omega, by omega⟩

/-- The bounds of the second byte let every character of four bytes through. -/
theorem lead_four {n : Nat} (h : 0x10000 ≤ n) (h' : n < 0x110000) :
    ∃ low high, lead (0xF0 + n / 262144).toUInt8 = .opens ⟨n / 262144, 3, low, high⟩ ∧
      low ≤ 0x80 + n / 4096 % 64 ∧ 0x80 + n / 4096 % 64 ≤ high := by
  unfold lead
  rw [toNat_toUInt8 (by omega)]
  dsimp only
  rw [if_neg (by omega), if_neg (by omega), if_neg (by omega), if_neg (by omega), if_neg (by omega),
    if_neg (by omega), Nat.add_sub_cancel_left]
  split
  · exact ⟨_, _, by rw [show n / 262144 = 0 by omega], by omega, by omega⟩
  · split
    · exact ⟨_, _, rfl, by omega, by omega⟩
    · rw [if_pos (by omega)]
      exact ⟨_, _, by rw [show n / 262144 = 4 by omega], by omega, by omega⟩

/-- A character is read off its bytes, whatever follows them. -/
theorem scan_encodeChar (c : Char) (bs : Bytes) :
    scan none (encodeChar c ++ bs) = some c :: scan none bs := by
  have hvalid : c.toNat < 0xD800 ∨ (0xDFFF < c.toNat ∧ c.toNat < 0x110000) := c.valid
  have hc : ∀ n, n = c.toNat → some (Char.ofNat n) :: scan none bs = some c :: scan none bs := by
    rintro _ rfl
    rw [Char.ofNat_toNat]
  unfold encodeChar
  dsimp only
  split_ifs with hone htwo hthree
  · have hlead := lead_of_ascii (b := c.toNat.toUInt8) (by rwa [toNat_toUInt8 (by omega)])
    rw [List.singleton_append, scan, hlead]
    exact hc _ (toNat_toUInt8 (by omega))
  · rw [List.cons_append, List.singleton_append, scan_of_opens (lead_two (by omega) htwo),
      scan_last (by omega) (by omega)]
    exact hc _ (by omega)
  · obtain ⟨low, high, hlead, hlow, hhigh⟩ :=
      lead_three (n := c.toNat) (by omega) hthree (by omega)
    rw [List.cons_append, List.cons_append, List.singleton_append, scan_of_opens hlead,
      scan_more hlow hhigh, scan_last (by omega) (by omega)]
    exact hc _ (by omega)
  · obtain ⟨low, high, hlead, hlow, hhigh⟩ := lead_four (n := c.toNat) (by omega) (by omega)
    rw [List.cons_append, List.cons_append, List.cons_append, List.singleton_append,
      scan_of_opens hlead, scan_more hlow hhigh, scan_more (by omega) (by omega),
      scan_last (by omega) (by omega)]
    exact hc _ (by omega)

theorem scan_encode (s : String) : scan none (encode s) = s.toList.map some := by
  unfold encode
  induction s.toList with
  | nil => rfl
  | cons c cs ih => rw [List.flatMap_cons, scan_encodeChar, ih, List.map_cons]

theorem decodeLossy_encode (s : String) : decodeLossy (encode s) = s := by
  unfold decodeLossy
  rw [scan_encode, List.map_map]
  exact (congrArg String.ofList (List.map_id _)).trans String.ofList_toList

theorem decode?_encode (s : String) : decode? (encode s) = some s := by
  have hall : (s.toList.map some).mapM id = some s.toList := by
    induction s.toList with
    | nil => rfl
    | cons c cs ih => rw [List.map_cons, List.mapM_cons, ih]; rfl
  unfold decode?
  rw [scan_encode, hall, Option.map_some, String.ofList_toList]

end Text.Utf8

end TokenKeeper
