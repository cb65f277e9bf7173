import TokenKeeper.Proofs.Outcome
import TokenKeeper.Time.Rfc3339
import Mathlib.Tactic.Ring

/-!
# What an accepted timestamp says

A timestamp that is accepted names a day of a year of four digits, a time of that day or the leap
second after a minute of it, and an offset of less than a day (`Rfc3339.exists_reading`). So the
instant it stands for lies in one of those years or within a day of them (`isNear_of_parse`).
-/

namespace TokenKeeper.Time

theorem monthLength_le (y : Int) (m : Nat) : monthLength y m ≤ 31 := by
  unfold monthLength
  split <;> first | omega | (split <;> omega)

theorem monthLength_of_lt (y : Int) {m : Nat} (h : 12 < m) : monthLength y m = 0 := by
  unfold monthLength
  split <;> omega

theorem daysBeforeMonth_le (y : Int) (m : Nat) : daysBeforeMonth y m ≤ 31 * m := by
  induction m with
  | zero => simp [daysBeforeMonth]
  | succ m ih =>
    have := monthLength_le y m
    rw [daysBeforeMonth]
    omega

theorem Date.month_le {d : Date} (h : d.exists? = true) : d.month ≤ 12 ∧ d.day ≤ 31 := by
  simp only [exists?, Bool.and_eq_true, decide_eq_true_eq] at h
  have hday := monthLength_le d.year d.month
  refine ⟨?_, by omega⟩
  by_contra hmonth
  have := monthLength_of_lt d.year (Nat.lt_of_not_le hmonth)
  omega

theorem Date.dayNumber_bounds {d : Date} (h : d.exists? = true) (hlower : 0 ≤ d.year)
    (hupper : d.year ≤ 9999) : -720000 ≤ d.dayNumber ∧ d.dayNumber ≤ 2933000 := by
  obtain ⟨hmonth, hday⟩ := Date.month_le h
  have hbefore := daysBeforeMonth_le d.year d.month
  unfold dayNumber daysBeforeYear
  dsimp only
  constructor <;> omega

/-- In a year of four digits or within a day of one. -/
structure Instant.IsNear (t : Instant) : Prop where
  lower : -63000000000 ≤ t.second
  upper : t.second ≤ 254000000000
  nano : t.nano < 2000000000

namespace Rfc3339

theorem digit_le {c : Char} {d : Nat} (h : digit c = .ok d) : d ≤ 9 := by
  unfold digit at h
  split at h
  · next hc =>
    have : c.toNat ≤ 57 := by
      simp only [Char.isDigit, Bool.and_eq_true, decide_eq_true_eq] at hc
      exact hc.2
    cases h
    omega
  · cases h

theorem digits_lt {n value v : Nat} {cs rest : List Char} (h : digits n value cs = .ok (v, rest)) :
    v < (value + 1) * 10 ^ n := by
  induction n generalizing value cs with
  | zero => cases h; simp
  | succ n ih =>
    cases cs with
    | nil => cases h
    | cons c cs =>
      obtain ⟨d, hd, h⟩ := bind_eq_ok_iff.1 h
      have hle := digit_le hd
      calc v < (value * 10 + d + 1) * 10 ^ n := ih h
        _ ≤ ((value + 1) * 10) * 10 ^ n := Nat.mul_le_mul_right _ (by omega)
        _ = (value + 1) * 10 ^ (n + 1) := by ring

theorem fractionDigits_lt (n value : Nat) (cs : List Char) :
    (fractionDigits n value cs).1 < (value + 1) * 10 ^ n := by
  induction n generalizing value cs with
  | zero => simp [fractionDigits]
  | succ n ih =>
    have hpos : 0 < 10 ^ (n + 1) := Nat.pow_pos (by omega)
    have hstop : value * Nat.pow 10 (n + 1) < (value + 1) * 10 ^ (n + 1) := by
      show value * 10 ^ (n + 1) < _
      rw [Nat.add_mul]
      omega
    cases cs with
    | nil => exact hstop
    | cons c cs =>
      rw [fractionDigits]
      split
      · next hc =>
        have hle : c.toNat - 48 ≤ 9 := digit_le (c := c) (by rw [digit, if_pos hc])
        calc (fractionDigits n (value * 10 + (c.toNat - 48)) cs).1
            < (value * 10 + (c.toNat - 48) + 1) * 10 ^ n := ih _ _
          _ ≤ ((value + 1) * 10) * 10 ^ n := Nat.mul_le_mul_right _ (by omega)
          _ = (value + 1) * 10 ^ (n + 1) := by ring
      · exact hstop

theorem fraction_lt {cs rest : List Char} {nano : Nat} (h : fraction cs = .ok (nano, rest)) :
    nano < 1000000000 := by
  unfold fraction at h
  split at h
  · cases h
  · split at h
    · next c cs _ =>
      have := fractionDigits_lt 9 0 (c :: cs)
      rw [Except.ok.inj h] at this
      omega
    · cases h
  · cases h; omega

/-- What the numbers of a timestamp say; `east` is the offset in seconds. -/
structure Reading where
  date : Date
  hour : Nat
  minute : Nat
  second : Nat
  nano : Nat
  east : Int

/-- The numbers name a day, a time and an offset. -/
structure Reading.IsValid (r : Reading) : Prop where
  year : 0 ≤ r.date.year ∧ r.date.year ≤ 9999
  date : r.date.exists? = true
  hour : r.hour ≤ 23
  minute : r.minute ≤ 59
  second : r.second ≤ 60
  nano : r.nano < 1000000000
  east : r.east.natAbs < 86400

/-- The instant the numbers name. Second 60 is the leap second of the second before. -/
def Reading.instant (r : Reading) : Instant where
  second := r.date.dayNumber * 86400 + r.hour * 3600 + r.minute * 60
    + (if r.second = 60 then 59 else r.second : Nat) - r.east
  nano := if r.second = 60 then r.nano + 1000000000 else r.nano

theorem exists_reading {s : String} {t : Instant} (h : parse s = .ok t) :
    ∃ r : Reading, r.IsValid ∧ t = r.instant := by
  unfold parse at h
  obtain ⟨-, h⟩ := guard_eq_ok_iff.1 h
  obtain ⟨⟨year, cs⟩, hyear, h⟩ := bind_eq_ok_iff.1 h
  obtain ⟨cs, -, h⟩ := bind_eq_ok_iff.1 h
  obtain ⟨⟨month, cs⟩, -, h⟩ := bind_eq_ok_iff.1 h
  obtain ⟨cs, -, h⟩ := bind_eq_ok_iff.1 h
  obtain ⟨⟨day, cs⟩, -, h⟩ := bind_eq_ok_iff.1 h
  obtain ⟨hdate, h⟩ := guard_eq_ok_iff.1 h
  obtain ⟨cs, -, h⟩ := bind_eq_ok_iff.1 h
  obtain ⟨⟨hour, cs⟩, -, h⟩ := bind_eq_ok_iff.1 h
  obtain ⟨cs, -, h⟩ := bind_eq_ok_iff.1 h
  obtain ⟨⟨minute, cs⟩, -, h⟩ := bind_eq_ok_iff.1 h
  obtain ⟨cs, -, h⟩ := bind_eq_ok_iff.1 h
  obtain ⟨⟨second, cs⟩, -, h⟩ := bind_eq_ok_iff.1 h
  obtain ⟨⟨nano, cs⟩, hnano, h⟩ := bind_eq_ok_iff.1 h
  obtain ⟨hclock, h⟩ := guard_eq_ok_iff.1 h
  obtain ⟨⟨east, cs⟩, -, h⟩ := bind_eq_ok_iff.1 h
  obtain ⟨-, h⟩ := guard_eq_ok_iff.1 h
  obtain ⟨heast, h⟩ := guard_eq_ok_iff.1 h
  have hlt := digits_lt hyear
  simp only [Bool.or_eq_true, decide_eq_true_eq, not_or, Nat.not_lt] at hclock
  refine ⟨⟨⟨year, month, day⟩, hour, minute, second, nano, east⟩,
    ⟨⟨Int.natCast_nonneg _, ?_⟩, by simpa using hdate, hclock.1.1, hclock.1.2, hclock.2,
      fraction_lt hnano, Nat.lt_of_not_le heast⟩, ?_⟩
  · show (year : Int) ≤ 9999
    omega
  · rw [← Except.ok.inj h]
    simp [Reading.instant]

theorem isNear_of_parse {s : String} {t : Instant} (h : parse s = .ok t) : t.IsNear := by
  obtain ⟨r, hr, rfl⟩ := exists_reading h
  obtain ⟨hlower, hupper⟩ := Date.dayNumber_bounds hr.date hr.year.1 hr.year.2
  have hsecond : (if r.second = 60 then 59 else r.second) ≤ 59 := by
    have := hr.second
    split <;> omega
  have hhour := hr.hour
  have hminute := hr.minute
  have heast := hr.east
  have hnano := hr.nano
  refine ⟨?_, ?_, ?_⟩ <;> unfold Reading.instant <;> dsimp only
  · omega
  · omega
  · split <;> omega

end Rfc3339

end TokenKeeper.Time
