import Mathlib.Tactic.IntervalCases
import TokenKeeper.Proofs.Deadline

/-!
# Spellings of an instant

A timestamp is written as a local time with a fraction and an offset (`Spelling`), and the same instant
has many spellings. Each is read as the instant it stands for, the local time less the offset
(`Spelling.parse_text`), so that whatever is computed from a token's times depends on the instants and
not on their texts. Days are counted as the calendar goes on from one to the next
(`Date.dayNumber_next`).
-/

namespace TokenKeeper.Time

/-! ## The calendar -/

namespace Date

def next (d : Date) : Date :=
  if d.day < monthLength d.year d.month then { d with day := d.day + 1 }
  else if d.month < 12 then ⟨d.year, d.month + 1, 1⟩
  else ⟨d.year + 1, 1, 1⟩

end Date

theorem monthLength_pos (y : Int) {m : Nat} (h : 1 ≤ m) (h' : m ≤ 12) : 1 ≤ monthLength y m := by
  interval_cases m
  case «2» => rw [monthLength]; split <;> decide
  all_goals exact Nat.le_add_left 1 _

/-- A year is its twelve months. -/
theorem daysBeforeYear_succ (y : Int) :
    daysBeforeYear (y + 1) = daysBeforeYear y + daysBeforeMonth y 13 := by
  have hmonths : (daysBeforeMonth y 13 : Int) = if isLeapYear y then 366 else 365 := by
    simp only [daysBeforeMonth, monthLength]
    split <;> rfl
  rw [hmonths]
  unfold daysBeforeYear isLeapYear
  simp only [Bool.and_eq_true, Bool.or_eq_true, beq_iff_eq, bne_iff_ne]
  split <;> omega

namespace Date
variable {d : Date}

theorem one_le_month (h : d.exists? = true) : 1 ≤ d.month := by
  simp only [exists?, Bool.and_eq_true, decide_eq_true_eq] at h
  by_contra hmonth
  have hzero : monthLength d.year d.month = 0 := by
    rw [Nat.eq_zero_of_not_pos hmonth]
    rfl
  omega

/-- From each day to the next one day passes, over the ends of months and years. -/
theorem dayNumber_next (h : d.exists? = true) :
    d.next.exists? = true ∧ d.next.dayNumber = d.dayNumber + 1 := by
  have hmonth := one_le_month h
  have hupper := (month_le h).1
  simp only [exists?, Bool.and_eq_true, decide_eq_true_eq] at h
  unfold next
  split
  · next hday =>
    refine ⟨by simp only [exists?, Bool.and_eq_true, decide_eq_true_eq]; omega, ?_⟩
    unfold dayNumber
    dsimp only
    omega
  next hday =>
  have hlast : d.day = monthLength d.year d.month := by omega
  split
  · next hlower =>
    refine ⟨?_, ?_⟩
    · simpa [exists?] using monthLength_pos d.year (by omega) (by omega)
    · unfold dayNumber
      simp only [daysBeforeMonth, hlast]
      omega
  · next hlower =>
    obtain hdecember : d.month = 12 := by omega
    refine ⟨?_, ?_⟩
    · simpa [exists?] using monthLength_pos (d.year + 1) (by omega) (by omega)
    · have hyear := daysBeforeYear_succ d.year
      have hmonths : daysBeforeMonth d.year 13 = daysBeforeMonth d.year 12 + monthLength d.year 12 := rfl
      have hfirst : daysBeforeMonth (d.year + 1) 1 = 0 := rfl
      unfold dayNumber
      rw [hlast, hdecember]
      dsimp only
      rw [hyear, hfirst, hmonths]
      omega

end Date

/-! ## Texts of timestamps -/

/-- The last `n` decimal digits of a number. -/
def decimals : Nat → Nat → List Char
  | 0, _ => []
  | n + 1, v => Nat.digitChar (v / 10 ^ n % 10) :: decimals n v

def digitChars (ds : List (Fin 10)) : List Char := ds.map fun d => Nat.digitChar d.val

/-- The number whose first digits are those of `value`. -/
def numberFrom (value : Nat) (ds : List (Fin 10)) : Nat := ds.foldl (fun v d => v * 10 + d.val) value

/-- What stands between the date and the time. -/
inductive Separator where
  | upper
  | lower
  | blank

def Separator.char : Separator → Char
  | upper => 'T'
  | lower => 't'
  | blank => ' '

/-- The offset of a local time: none, written as a letter, or hours and minutes ahead of UTC or behind
it. -/
inductive Zone where
  | utc (isUpper : Bool)
  | offset (isAhead : Bool) (hour : Fin 24) (minute : Fin 60)

namespace Zone

/-- The seconds by which the local time is ahead of UTC. -/
def east : Zone → Int
  | utc _ => 0
  | offset isAhead hour minute =>
    let seconds : Int := hour * 3600 + minute * 60
    if isAhead then seconds else -seconds

def chars : Zone → List Char
  | utc isUpper => [if isUpper then 'Z' else 'z']
  | offset isAhead hour minute =>
    (if isAhead then '+' else '-') :: (decimals 2 hour ++ ':' :: decimals 2 minute)

end Zone

/-- A timestamp as it is written: a day there is, a time of that day without a leap second, up to nine
digits of its fraction, and the offset. -/
structure Spelling where
  date : Date
  isDay : date.exists? = true
  lower : 0 ≤ date.year
  upper : date.year ≤ 9999
  separator : Separator
  hour : Fin 24
  minute : Fin 60
  second : Fin 60
  fraction : List (Fin 10)
  isShort : fraction.length ≤ 9
  zone : Zone

namespace Spelling

/-- The digits of the fraction as they are written; without digits there is no point either. -/
def fractionChars (s : Spelling) : List Char :=
  if s.fraction = [] then [] else '.' :: digitChars s.fraction

def chars (s : Spelling) : List Char :=
  decimals 4 s.date.year.toNat ++ '-' :: (decimals 2 s.date.month ++ '-' :: (decimals 2 s.date.day ++
    s.separator.char :: (decimals 2 s.hour ++ ':' :: (decimals 2 s.minute ++
      ':' :: (decimals 2 s.second ++ (s.fractionChars ++ s.zone.chars))))))

def text (s : Spelling) : String := String.ofList s.chars

def nano (s : Spelling) : Nat := numberFrom 0 s.fraction * 10 ^ (9 - s.fraction.length)

/-- The seconds of the local time since the beginning of 1970. -/
def localSecond (s : Spelling) : Int :=
  s.date.dayNumber * 86400 + s.hour * 3600 + s.minute * 60 + s.second

/-- The nanoseconds in UTC since the beginning of 1970: those of the local time, less the offset. -/
def utcNanos (s : Spelling) : Int := (s.localSecond - s.zone.east) * billion + s.nano

/-- The instant the timestamp stands for. -/
def instant (s : Spelling) : Instant := ⟨s.localSecond - s.zone.east, s.nano⟩

end Spelling

/-! ## Reading a text -/

namespace Rfc3339

theorem digit_digitChar {d : Nat} (h : d < 10) : digit (Nat.digitChar d) = .ok d := by
  rw [digit, if_pos (by rw [Nat.isDigit_digitChar, decide_eq_true h]), Nat.toNat_digitChar_of_lt_ten h,
    Nat.add_sub_cancel_left]

theorem digits_decimals (n value v : Nat) (rest : List Char) :
    digits n value (decimals n v ++ rest) = .ok (value * 10 ^ n + v % 10 ^ n, rest) := by
  induction n generalizing value with
  | zero => simp [digits, decimals, Nat.mod_one]
  | succ n ih =>
    rw [decimals, List.cons_append, digits, digit_digitChar (Nat.mod_lt _ (by decide))]
    refine (ih _).trans ?_
    have hvalue : (value * 10 + v / 10 ^ n % 10) * 10 ^ n + v % 10 ^ n =
        value * 10 ^ (n + 1) + v % 10 ^ (n + 1) := by
      rw [Nat.mod_pow_succ]
      ring
    rw [hvalue]

theorem digits_of_lt {n v : Nat} (h : v < 10 ^ n) (rest : List Char) :
    digits n 0 (decimals n v ++ rest) = .ok (v, rest) := by
  rw [digits_decimals, Nat.mod_eq_of_lt h, Nat.zero_mul, Nat.zero_add]

theorem oneOf_cons {allowed : List Char} {c : Char} (h : c ∈ allowed) (cs : List Char) :
    oneOf allowed (c :: cs) = .ok cs := by
  rw [oneOf, if_pos (List.contains_iff_mem.2 h)]

theorem pair_decimals {v : Nat} (h : v < 100) (rest : List Char) :
    pair (decimals 2 v ++ rest) = .ok (v / 10, v % 10, rest) := by
  have hhigh : v / 10 ^ 1 % 10 < 10 := Nat.mod_lt _ (by decide)
  have hlow : v / 10 ^ 0 % 10 < 10 := Nat.mod_lt _ (by decide)
  have htens : v / 10 ^ 1 % 10 = v / 10 := by omega
  have hones : v / 10 ^ 0 % 10 = v % 10 := by omega
  simp only [decimals, List.cons_append, List.nil_append, pair, Nat.isDigit_digitChar,
    decide_eq_true hhigh, decide_eq_true hlow, Bool.and_self, ↓reduceIte,
    Nat.toNat_digitChar_of_lt_ten hhigh, Nat.toNat_digitChar_of_lt_ten hlow, Nat.add_sub_cancel_left]
  rw [htens, hones]

theorem offset_chars (z : Zone) : offset z.chars = .ok (z.east, []) := by
  cases z with
  | utc isUpper => cases isUpper <;> rfl
  | offset isAhead hour minute =>
    have hhour := pair_decimals (v := hour) (by omega) (':' :: decimals 2 minute)
    have hminute := pair_decimals (v := minute) (by omega) []
    have hcolon := oneOf_cons (List.mem_singleton_self ':') (decimals 2 minute)
    have htens : ¬ 5 < (minute : Nat) / 10 := by omega
    rw [List.append_nil] at hminute
    have hseconds : ((((hour : Nat) / 10 * 10 + hour % 10) * 3600 +
        ((minute : Nat) / 10 * 10 + minute % 10) * 60 : Nat) : Int) = hour * 3600 + minute * 60 := by
      omega
    cases isAhead <;>
      simp only [Zone.chars, Zone.east, offset, hhour, hcolon, hminute, bind, Except.bind, if_neg htens,
        hseconds] <;>
      rfl

theorem fractionDigits_digits (n value : Nat) {ds : List (Fin 10)} (h : ds.length ≤ n)
    {rest : List Char} (hrest : ∀ c ∈ rest.head?, c.isDigit = false) :
    fractionDigits n value (digitChars ds ++ rest) =
      (numberFrom value ds * 10 ^ (n - ds.length), rest) := by
  induction ds generalizing n value with
  | nil =>
    cases rest with
    | nil => cases n <;> simp [fractionDigits, digitChars, numberFrom]
    | cons c cs =>
      have hc := hrest c rfl
      cases n <;> simp [fractionDigits, digitChars, numberFrom, hc]
  | cons d ds ih =>
    cases n with
    | zero => cases h
    | succ n =>
      have hd : (d : Nat) < 10 := d.isLt
      rw [digitChars, List.map_cons, List.cons_append, fractionDigits,
        if_pos (by rw [Nat.isDigit_digitChar, decide_eq_true hd]), Nat.toNat_digitChar_of_lt_ten hd,
        Nat.add_sub_cancel_left, List.length_cons, Nat.add_sub_add_right]
      exact ih n _ (Nat.le_of_succ_le_succ h)

theorem head_chars (z : Zone) : ∀ c ∈ z.chars.head?, c.isDigit = false ∧ c ≠ '.' := by
  intro c hc
  cases z with
  | utc isUpper => cases isUpper <;> cases hc <;> decide
  | offset isAhead hour minute => cases isAhead <;> cases hc <;> decide

theorem fraction_chars (s : Spelling) :
    fraction (s.fractionChars ++ s.zone.chars) = .ok (s.nano, s.zone.chars) := by
  have hhead := head_chars s.zone
  unfold Spelling.fractionChars Spelling.nano
  -- the offset behind the fraction begins neither with a digit nor with a point
  split
  · next hnone =>
    rw [hnone, List.nil_append, fraction.eq_def]
    split
    · next heq => exact absurd rfl (hhead '.' (by rw [heq]; rfl)).2
    · next heq => exact absurd rfl (hhead '.' (by rw [heq]; rfl)).2
    · simp [numberFrom]
  · next hsome =>
    obtain ⟨d, ds, hds⟩ := List.exists_cons_of_ne_nil hsome
    have hread := fractionDigits_digits 9 0 s.isShort fun c hc => (hhead c hc).1
    rw [List.cons_append, ← hread, hds, digitChars, List.map_cons, List.cons_append, fraction, if_pos]
    rw [Nat.isDigit_digitChar, decide_eq_true d.isLt]

end Rfc3339

namespace Spelling
open Rfc3339
variable {s s' : Spelling}

theorem length_decimals (n v : Nat) : (decimals n v).length = n := by
  induction n with
  | zero => rfl
  | succ n ih => rw [decimals, List.length_cons, ih]

theorem length_le_utf8ByteSize (cs : List Char) : cs.length ≤ (String.ofList cs).utf8ByteSize := by
  induction cs with
  | nil => exact Nat.zero_le _
  | cons c cs ih =>
    have := c.utf8Size_pos
    rw [String.ofList_cons, String.utf8ByteSize_append, String.utf8ByteSize_singleton, List.length_cons]
    omega

theorem size_text (s : Spelling) : 19 ≤ s.text.utf8ByteSize := by
  refine Nat.le_trans ?_ (length_le_utf8ByteSize s.chars)
  simp only [chars, List.length_append, List.length_cons, length_decimals]
  omega

theorem parse_text (s : Spelling) : parse s.text = .ok s.instant := by
  obtain ⟨hmonth, hday⟩ := Date.month_le s.isDay
  have hlower := s.lower
  have hupper := s.upper
  have hdate : (⟨s.date.year.toNat, s.date.month, s.date.day⟩ : Date) = s.date := by
    rw [Int.toNat_of_nonneg hlower]
  have hseparator : s.separator.char ∈ ['T', 't', ' '] := by cases s.separator <;> decide
  have hclock : (23 < (s.hour : Nat) || 59 < (s.minute : Nat) || 60 < (s.second : Nat)) = false := by
    simp only [Bool.or_eq_false_iff, decide_eq_false_iff_not]
    omega
  have heast : ¬ 86400 ≤ s.zone.east.natAbs := by
    cases s.zone with
    | utc => simp [Zone.east]
    | offset isAhead hour minute =>
      simp only [Zone.east]
      split <;> omega
  have hsecond : ((s.second : Nat) == 60) = false := by
    rw [beq_eq_false_iff_ne]
    omega
  -- each part takes its own characters and leaves the rest to the next
  unfold parse
  rw [if_neg (Nat.not_lt.2 s.size_text)]
  simp only [text, String.toList_ofList, chars, bind, Except.bind, pure, Except.pure,
    digits_of_lt (n := 4) (v := s.date.year.toNat) (by omega),
    digits_of_lt (n := 2) (v := s.date.month) (by omega),
    digits_of_lt (n := 2) (v := s.date.day) (by omega),
    digits_of_lt (n := 2) (v := s.hour) (by omega),
    digits_of_lt (n := 2) (v := s.minute) (by omega),
    digits_of_lt (n := 2) (v := s.second) (by omega),
    oneOf_cons hseparator, oneOf_cons (List.mem_singleton_self _), fraction_chars, offset_chars, hdate,
    s.isDay, hclock, if_neg heast, hsecond]
  rfl

theorem numberFrom_concat_zero (value : Nat) (ds : List (Fin 10)) :
    numberFrom value (ds ++ [0]) = numberFrom value ds * 10 := by
  rw [numberFrom, List.foldl_append, List.foldl_cons, List.foldl_nil]
  rfl

/-- A zero at the end of the fraction says nothing. -/
theorem nano_of_concat_zero (h : s'.fraction = s.fraction ++ [0]) : s'.nano = s.nano := by
  have hshort := s'.isShort
  rw [h, List.length_append, List.length_singleton] at hshort
  obtain ⟨k, hk⟩ : ∃ k, 9 - s.fraction.length = k + 1 := ⟨8 - s.fraction.length, by omega⟩
  have hk' : 9 - (s.fraction.length + 1) = k := by omega
  rw [nano, nano, h, numberFrom_concat_zero, List.length_append, List.length_singleton, hk, hk']
  ring

theorem nano_lt (s : Spelling) : s.nano < 1000000000 := by
  have hread := fraction_chars s
  exact fraction_lt hread

theorem inLeapSecond_instant (s : Spelling) : s.instant.inLeapSecond = false :=
  Instant.inLeapSecond_eq_false_iff.2 s.nano_lt

theorem instant_eq_of_utcNanos (h : s.utcNanos = s'.utcNanos) : s.instant = s'.instant :=
  Instant.eq_of_nanos_eq s.inLeapSecond_instant s'.inLeapSecond_instant h

end Spelling

/-- Every timestamp is read as the instant that it stands for: its local time less its offset, with the
digits of its fraction as nanoseconds, where days are counted from the first of 1970 as the calendar has
them. So two tokens whose times stand for the same two instants have the same deadline, and at every time
of day the one is to be renewed exactly if the other is, however their times are written. -/
theorem Spelling.timed_by_instants :
    (∀ s : Spelling, Rfc3339.parse s.text = .ok s.instant ∧ s.instant.nanos = s.utcNanos ∧
      s.instant.inLeapSecond = false) ∧
    ((Date.mk 1970 1 1).dayNumber = 0 ∧ ∀ d : Date, d.exists? = true →
      d.next.exists? = true ∧ d.next.dayNumber = d.dayNumber + 1) ∧
    (∀ s s' : Spelling, s'.fraction = s.fraction ++ [0] → s'.nano = s.nano) ∧
    ∀ issued issued' expires expires' : Spelling, issued.utcNanos = issued'.utcNanos →
      expires.utcNanos = expires'.utcNanos →
      ∃ deadline, renewalDeadline issued.text expires.text = .ok deadline ∧
        renewalDeadline issued'.text expires'.text = .ok deadline ∧
        ∀ id id' protocol protocol' now, ∃ isDue,
          TokenCache.needsRenewal (some ⟨⟨id, issued.text, expires.text⟩, protocol⟩) now = .ok isDue ∧
          TokenCache.needsRenewal (some ⟨⟨id', issued'.text, expires'.text⟩, protocol'⟩) now =
            .ok isDue := by
  refine ⟨fun s => ⟨s.parse_text, rfl, s.inLeapSecond_instant⟩, ⟨by decide, fun d => d.dayNumber_next⟩,
    fun s s' => nano_of_concat_zero, fun issued issued' expires expires' hissued hexpires => ?_⟩
  have hdeadline (id : String) (i e : Spelling) :
      (Token.mk id i.text e.text).deadline = .ok (i.instant.midpoint e.instant) :=
    Token.deadline_of_times i.parse_text e.parse_text
  have hsame : issued'.instant.midpoint expires'.instant = issued.instant.midpoint expires.instant := by
    rw [instant_eq_of_utcNanos hissued, instant_eq_of_utcNanos hexpires]
  refine ⟨issued.instant.midpoint expires.instant, hdeadline "" issued expires,
    hsame ▸ hdeadline "" issued' expires', fun id id' protocol protocol' now =>
    ⟨now.after (issued.instant.midpoint expires.instant), ?_, ?_⟩⟩
  · rw [TokenCache.needsRenewal_some, hdeadline]
    rfl
  · rw [TokenCache.needsRenewal_some, hdeadline, hsame]
    rfl

/-- Two spellings of one instant, an hour and a day apart in their local times. -/
example :
    let s : Spelling := ⟨⟨2024, 1, 1⟩, rfl, by decide, by decide, .upper, 0, 30, 0, [], by decide,
      .offset true 1 0⟩
    let s' : Spelling := ⟨⟨2023, 12, 31⟩, rfl, by decide, by decide, .blank, 23, 30, 0, [0], by decide,
      .utc false⟩
    s.text = "2024-01-01T00:30:00+01:00" ∧ s'.text = "2023-12-31 23:30:00.0z" ∧
      s.utcNanos = s'.utcNanos := by decide +kernel

end TokenKeeper.Time
