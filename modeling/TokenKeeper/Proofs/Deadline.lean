import TokenKeeper.Proofs.Renewal
import TokenKeeper.Proofs.Timestamps
import TokenKeeper.Time.Span

/-!
# The deadline lies midway

The deadline of a token is computed by taking the span between its times, halving it and adding the
half to the first of them. Each of these steps has bounds, and no pair of timestamps leaves them
(`Instant.midpoint?_eq`): the years of timestamps are few beside those of a clock. A span counts its
nanoseconds upwards from a whole second, so half of it is rounded down for negative spans too
(`Span.half_nanos`), and outside of leap seconds the deadline is the middle rounded down, whichever of
the two times comes first.
-/

namespace TokenKeeper

namespace Time

namespace Span

theorem of?_eq_some (second nano : Int) (hnano : 0 ≤ nano ∧ nano < 1000000000)
    (hsecond : -9000000000000000 ≤ second ∧ second ≤ 9000000000000000) :
    of? second nano = some ⟨second, nano⟩ := by
  refine if_pos ⟨hnano.1, hnano.2, ?_, ?_⟩ <;> unfold billion longest <;> omega

theorem carry_of_nano {second nano : Int} (hnano : 0 ≤ nano ∧ nano < 1000000000) :
    carry second nano = ⟨second, nano⟩ := by
  unfold carry billion
  rw [if_neg (by omega), if_neg (by omega)]

theorem carry_nanos (second nano : Int) : (carry second nano).nanos = second * billion + nano := by
  unfold carry
  split
  · simp only [nanos, billion]; omega
  · split <;> simp only [nanos, billion]
    omega

theorem half_nanos {d : Span} (hnano : 0 ≤ d.nano) : d.half.nanos = d.nanos / 2 := by
  have hsplit := Int.mul_tdiv_add_tmod d.second 2
  have hupper := Int.tmod_lt_of_pos d.second (b := 2) (by decide)
  have hlower := Int.lt_tmod_of_pos d.second (b := 2) (by decide)
  have hhalf : Int.tdiv d.nano 2 = d.nano / 2 := Int.tdiv_eq_ediv_of_nonneg hnano
  -- the second that is left over is half a billion nanoseconds with its sign
  have hcarry : Int.tdiv (Int.tmod d.second 2 * billion) 2 = Int.tmod d.second 2 * 500000000 := by
    have : Int.tmod d.second 2 = -1 ∨ Int.tmod d.second 2 = 0 ∨ Int.tmod d.second 2 = 1 := by omega
    rcases this with h | h | h <;> rw [h] <;> decide
  rw [half, carry_nanos, hhalf, hcarry, nanos]
  unfold billion
  omega

end Span

namespace Instant
variable {a b t : Instant}

theorem since?_eq (ha : a.IsNear) (hb : b.IsNear) :
    a.since? b = some ⟨a.since b / billion, a.since b % billion⟩ := by
  obtain ⟨hal, hau, han⟩ := ha
  obtain ⟨hbl, hbu, hbn⟩ := hb
  unfold since? since
  generalize hp : (if (decide (b.secondOfDay < a.secondOfDay) && b.inLeapSecond) = true then (1 : Int)
    else if (decide (a.secondOfDay < b.secondOfDay) && a.inLeapSecond) = true then -1 else 0) = passed
  have hpassed : -1 ≤ passed ∧ passed ≤ 1 := by
    rw [← hp]
    split_ifs <;> decide
  simp only [billion, secondOfDay]
  have hdays := Span.of?_eq_some ((a.second / 86400 - b.second / 86400) * 86400) 0
    (by omega) (by omega)
  have htime := Span.of?_eq_some
    (a.second % 86400 - b.second % 86400 + passed + ((a.nano : Int) - b.nano) / 1000000000)
    (((a.nano : Int) - b.nano) % 1000000000) (by omega) (by omega)
  simp only [hdays, htime, Option.bind_eq_bind, Option.bind_some, Span.add?]
  -- the nanoseconds of the days are zero, so none are carried
  rw [Span.carry_of_nano (by omega)]
  dsimp only
  rw [Span.of?_eq_some _ _ (by omega) (by omega)]
  simp only [Option.some.injEq, Span.mk.injEq]
  constructor <;> omega

theorem normal_second (second nanos : Int) :
    second - 1 ≤ (normal second nanos).second ∧ (normal second nanos).second ≤ second + 1 := by
  unfold normal
  split
  · dsimp only; omega
  · split <;> dsimp only <;> omega

theorem plus_second (t : Instant) (span : Int) :
    t.second + Int.tdiv span billion - 1 ≤ (t.plus span).second ∧
      (t.plus span).second ≤ t.second + Int.tdiv span billion + 2 := by
  unfold plus
  dsimp only
  generalize Int.tdiv span billion = seconds
  generalize Int.tmod span billion = nanos
  split
  · split
    · have := normal_second (t.second + seconds) (t.nano - billion + nanos)
      omega
    · next hleaves =>
      split
      · have := normal_second (t.second + 1 + seconds) (t.nano - billion + nanos)
        omega
      · next hneg =>
        simp only [Bool.or_eq_true, decide_eq_true_eq, not_or] at hleaves
        dsimp only
        omega
  · have := normal_second (t.second + seconds) (t.nano + nanos)
    omega

theorem half_since_bounds (ha : a.IsNear) (hb : b.IsNear) :
    -400000000000 ≤ Int.tdiv (b.since a / 2) billion ∧
      Int.tdiv (b.since a / 2) billion ≤ 400000000000 := by
  obtain ⟨hal, hau, han⟩ := ha
  obtain ⟨hbl, hbu, hbn⟩ := hb
  have hsplit := Int.mul_tdiv_add_tmod (b.since a / 2) billion
  have hupper := Int.tmod_lt_of_pos (b.since a / 2) (b := billion) (by decide)
  have hlower := Int.lt_tmod_of_pos (b.since a / 2) (b := billion) (by decide)
  have hsince : -330000000000 * 1000000000 ≤ b.since a ∧ b.since a ≤ 330000000000 * 1000000000 := by
    unfold since
    dsimp only
    split
    · unfold billion; omega
    · split <;> unfold billion <;> omega
  unfold billion at *
  omega

theorem isDated_of_second (hlower : -8000000000000 ≤ t.second) (hupper : t.second ≤ 8000000000000) :
    t.isDated = true := by
  have hfirst : firstDay = -96465292 := by decide
  have hlast : lastDay = 95026236 := by decide
  simp only [isDated, hfirst, hlast, Bool.and_eq_true, decide_eq_true_eq]
  omega

/-- No step to the middle between two instants near our time leaves its bounds. -/
theorem midpoint?_eq (ha : a.IsNear) (hb : b.IsNear) : midpoint? a b = some (a.midpoint b) := by
  have hhalf : (Span.half ⟨b.since a / billion, b.since a % billion⟩).nanos = b.since a / 2 := by
    rw [Span.half_nanos (Int.emod_nonneg _ (by decide)), Span.nanos]
    dsimp only
    rw [Int.ediv_mul_add_emod]
  have hsecond := a.plus_second (b.since a / 2)
  have hspan := half_since_bounds ha hb
  have hdated : (a.plus (b.since a / 2)).isDated = true := by
    have := ha.lower
    have := ha.upper
    refine isDated_of_second ?_ ?_ <;> omega
  unfold midpoint? plus? midpoint
  simp only [since?_eq hb ha, hhalf, hdated, Option.bind_eq_bind, Option.bind_some, ↓reduceIte]

theorem inLeapSecond_eq_false_iff : t.inLeapSecond = false ↔ t.nano < 1000000000 := by
  rw [inLeapSecond, decide_eq_false_iff_not, Nat.not_le]

theorem normal_nanos (second : Int) {rest : Int} (hlower : -billion ≤ rest)
    (hupper : rest < 2 * billion) :
    (normal second rest).nanos = second * billion + rest ∧
      (normal second rest).inLeapSecond = false := by
  rw [inLeapSecond_eq_false_iff]
  unfold normal nanos
  unfold billion at *
  split
  · dsimp only; omega
  · split <;> dsimp only <;> omega

/-- Outside of leap seconds nanoseconds are added as numbers. -/
theorem plus_nanos (h : t.inLeapSecond = false) (span : Int) :
    (t.plus span).nanos = t.nanos + span ∧ (t.plus span).inLeapSecond = false := by
  have hsplit := Int.mul_tdiv_add_tmod span billion
  have hupper := Int.tmod_lt_of_pos span (b := billion) (by decide)
  have hlower := Int.lt_tmod_of_pos span (b := billion) (by decide)
  have hnano := inLeapSecond_eq_false_iff.1 h
  have hplus : t.plus span =
      normal (t.second + Int.tdiv span billion) (t.nano + Int.tmod span billion) := by
    unfold plus
    rw [h]
    rfl
  unfold billion at hsplit hupper hlower
  rw [hplus]
  have hlower : -billion ≤ t.nano + Int.tmod span billion := by unfold billion; omega
  have hupper : t.nano + Int.tmod span billion < 2 * billion := by unfold billion; omega
  obtain ⟨hnanos, hleap⟩ := normal_nanos (t.second + Int.tdiv span billion) hlower hupper
  refine ⟨?_, hleap⟩
  rw [hnanos, nanos]
  unfold billion
  omega

theorem since_nanos (ha : a.inLeapSecond = false) (hb : b.inLeapSecond = false) :
    a.since b = a.nanos - b.nanos := by
  unfold since
  simp only [ha, hb, Bool.and_false, Bool.false_eq_true, ↓reduceIte, nanos, billion]
  omega

/-- Outside of leap seconds the middle is the half of the sum, rounded down. -/
theorem midpoint_nanos (ha : a.inLeapSecond = false) (hb : b.inLeapSecond = false) :
    (a.midpoint b).nanos = (a.nanos + b.nanos) / 2 ∧ (a.midpoint b).inLeapSecond = false := by
  unfold midpoint
  obtain ⟨hnanos, hleap⟩ := plus_nanos ha (b.since a / 2)
  refine ⟨?_, hleap⟩
  rw [hnanos, since_nanos hb ha]
  omega

theorem eq_of_nanos_eq (ha : a.inLeapSecond = false) (hb : b.inLeapSecond = false)
    (h : a.nanos = b.nanos) : a = b := by
  obtain ⟨second, nano⟩ := a
  obtain ⟨second', nano'⟩ := b
  have hnano := inLeapSecond_eq_false_iff.1 ha
  have hnano' := inLeapSecond_eq_false_iff.1 hb
  unfold nanos billion at h
  dsimp only at h hnano hnano'
  rw [mk.injEq]
  omega

theorem midpoint_comm (ha : a.inLeapSecond = false) (hb : b.inLeapSecond = false) :
    a.midpoint b = b.midpoint a := by
  obtain ⟨hab, hab'⟩ := midpoint_nanos ha hb
  obtain ⟨hba, hba'⟩ := midpoint_nanos hb ha
  exact eq_of_nanos_eq hab' hba' (by rw [hab, hba, Int.add_comm])

theorem after_iff : a.after b = true ↔
    b.second < a.second ∨ b.second = a.second ∧ b.nano < a.nano := by
  simp only [after, Bool.or_eq_true, Bool.and_eq_true, decide_eq_true_eq, beq_iff_eq]
  rw [eq_comm (a := a.second)]

end Instant

end Time

/-- A deadline is an error exactly if one of the two times is no timestamp, and the error names the
first of them that is none. Otherwise no step of its computation leaves its bounds, and outside of leap
seconds it is the middle between the times in nanoseconds, rounded down, in whichever order they come,
and lies between them. Without a token one has to be obtained; with a token, the error of its deadline
is passed on, or else a new one has to be obtained exactly if the deadline has passed. -/
theorem Token.deadline_midway (t : Token) :
    ((∃ e, t.deadline = .error e) ↔ ¬ t.IsTimed) ∧
    (∀ fault, Time.Rfc3339.parse t.issuedAt = .error fault →
      t.deadline = .error (.timeParse t.issuedAt fault)) ∧
    (∀ issued fault, Time.Rfc3339.parse t.issuedAt = .ok issued →
      Time.Rfc3339.parse t.expiresAt = .error fault →
      t.deadline = .error (.timeParse t.expiresAt fault)) ∧
    (∀ issued expires, Time.Rfc3339.parse t.issuedAt = .ok issued →
      Time.Rfc3339.parse t.expiresAt = .ok expires →
      ∃ d, t.deadline = .ok d ∧ issued.midpoint? expires = some d ∧
        (issued.inLeapSecond = false → expires.inLeapSecond = false →
          d.nanos = (issued.nanos + expires.nanos) / 2 ∧ d.inLeapSecond = false ∧
          (Token.mk t.id t.expiresAt t.issuedAt).deadline = .ok d ∧
          min issued.nanos expires.nanos ≤ d.nanos ∧ d.nanos ≤ max issued.nanos expires.nanos)) ∧
    (∀ now, TokenCache.needsRenewal none now = .ok true) ∧
    (∀ protocol now e, t.deadline = .error e →
      TokenCache.needsRenewal (some ⟨t, protocol⟩) now = .error e) ∧
    (∀ protocol now d, t.deadline = .ok d →
      ∃ isDue, TokenCache.needsRenewal (some ⟨t, protocol⟩) now = .ok isDue ∧
        (isDue = true ↔ d.second < now.second ∨ d.second = now.second ∧ d.nano < now.nano)) := by
  refine ⟨⟨?_, fun h => ?_⟩, fun fault h => ?_, fun issued fault hi he => ?_,
    fun issued expires hi he => ⟨_, deadline_of_times hi he, ?_, fun hil hel => ?_⟩, fun _ => rfl,
    fun protocol now e h => ?_, fun protocol now d h => ?_⟩
  · rintro ⟨e, he⟩ ⟨issued, expires, hissued, hexpires⟩
    rw [deadline_of_times hissued hexpires] at he
    cases he
  · rcases t.deadline_cases with ⟨value, fault, -, hd⟩ | ⟨issued, expires, hi, he, -⟩
    · exact ⟨_, hd⟩
    · exact absurd ⟨issued, expires, hi, he⟩ h
  · unfold deadline renewalDeadline readTime
    rw [h]
    rfl
  · unfold deadline renewalDeadline readTime
    rw [hi, he]
    rfl
  · exact Time.Instant.midpoint?_eq (Time.Rfc3339.isNear_of_parse hi) (Time.Rfc3339.isNear_of_parse he)
  · obtain ⟨hnanos, hleap⟩ := Time.Instant.midpoint_nanos hil hel
    refine ⟨hnanos, hleap, ?_, by omega, by omega⟩
    rw [Time.Instant.midpoint_comm hil hel]
    exact deadline_of_times he hi
  · rw [TokenCache.needsRenewal_some, h]
    rfl
  · refine ⟨now.after d, ?_, Time.Instant.after_iff⟩
    rw [TokenCache.needsRenewal_some, h]
    rfl

end TokenKeeper
