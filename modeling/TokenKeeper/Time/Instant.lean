import TokenKeeper.Time.Calendar
/-!
# Instants

An instant is a second since 1970-01-01T00:00:00Z and the nanoseconds after its start. A leap
second has no number of its own: it is the second half of the second before it, so its
nanoseconds run from one to two billion. Differences and sums count a leap second exactly when
one of the two instants lies in it.
-/
namespace TokenKeeper.Time

def billion : Int := 1000000000

/-- A point in time; `nano` reaches beyond a billion only inside a leap second. -/
structure Instant where
  second : Int
  nano : Nat
deriving DecidableEq, Repr

namespace Instant

def secondOfDay (t : Instant) : Int := t.second % 86400

def inLeapSecond (t : Instant) : Bool := 1000000000 ≤ t.nano

def after (a b : Instant) : Bool :=
  b.second < a.second || (a.second == b.second && b.nano < a.nano)

/-- The nanoseconds from `b` to `a`. The leap second of the earlier time of day has passed in
between and counts. -/
def since (a b : Instant) : Int :=
  let passed : Int :=
    if b.secondOfDay < a.secondOfDay && b.inLeapSecond then 1
    else if a.secondOfDay < b.secondOfDay && a.inLeapSecond then -1
    else 0
  (a.second - b.second + passed) * billion + ((a.nano : Int) - b.nano)

/-- The instant with `nanos` after the start of `second`, where `nanos` may fall outside the
second by less than one. -/
def normal (second nanos : Int) : Instant :=
  if nanos < 0 then ⟨second - 1, (nanos + billion).toNat⟩
  else if billion ≤ nanos then ⟨second + 1, (nanos - billion).toNat⟩
  else ⟨second, nanos.toNat⟩

/-- The instant `span` nanoseconds later. A sum that stays within a leap second, or in the second
it prolongs, keeps to it; any other leaves it first. -/
def plus (t : Instant) (span : Int) : Instant :=
  let seconds := Int.tdiv span billion
  let nanos := Int.tmod span billion
  if t.inLeapSecond then
    -- forwards the leap second counts as the one before it, backwards as the one behind it
    if 0 < seconds || (0 < nanos && 2 * billion ≤ t.nano + nanos) then
      normal (t.second + seconds) (t.nano - billion + nanos)
    else if seconds < 0 then
      normal (t.second + 1 + seconds) (t.nano - billion + nanos)
    else ⟨t.second, (t.nano + nanos).toNat⟩
  else normal (t.second + seconds) (t.nano + nanos)

/-- The instant halfway from `a` to `b`, to the nanosecond below. -/
def midpoint (a b : Instant) : Instant :=
  a.plus (b.since a / 2)

/-- The instant a clock shows, if it is one: the year has at most six digits, and only the last
second of a minute may be followed by a leap second. -/
def ofClock? (second : Int) (nano : Nat) : Option Instant :=
  let first := (Date.mk (-262143) 1 1).dayNumber
  let last := (Date.mk 262142 12 31).dayNumber
  let day := second / 86400
  if first ≤ day && day ≤ last
      && (nano < 1000000000 || (nano < 2000000000 && second % 60 == 59)) then
    some ⟨second, nano⟩
  else none

end Instant

end TokenKeeper.Time
