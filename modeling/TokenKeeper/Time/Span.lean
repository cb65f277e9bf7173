import TokenKeeper.Time.Instant
/-!
# Spans of time

A span is kept as whole seconds and the nanoseconds after them, and it has bounds: its milliseconds
fit into a signed word of 64 bits. A sum that leaves the bounds is no span, and an instant in a year
of more than six digits is no instant. Here the middle between two instants is computed by steps of
this kind, each of which may fail.
-/
namespace TokenKeeper.Time

/-- A span of time; `nano` counts from 0 and stays below a billion, also where the span is negative. -/
structure Span where
  second : Int
  nano : Int
deriving DecidableEq, Repr

namespace Span

/-- The nanoseconds of the longest span. -/
def longest : Int := 9223372036854775807 * 1000000

def nanos (d : Span) : Int := d.second * billion + d.nano

/-- The span of those seconds and nanoseconds, if it is one. -/
def of? (second nano : Int) : Option Span :=
  if 0 ≤ nano ∧ nano < billion ∧ -longest ≤ second * billion + nano ∧ second * billion + nano ≤ longest
  then some ⟨second, nano⟩
  else none

/-- The span of those seconds and nanoseconds, where the nanoseconds may fall outside the second by
less than one. -/
def carry (second nano : Int) : Span :=
  if nano < 0 then ⟨second - 1, nano + billion⟩
  else if billion ≤ nano then ⟨second + 1, nano - billion⟩
  else ⟨second, nano⟩

def add? (a b : Span) : Option Span :=
  let d := carry (a.second + b.second) (a.nano + b.nano)
  of? d.second d.nano

/-- Half of a span. The seconds are halved towards zero, and the second that is left over goes to
the nanoseconds with its sign. -/
def half (d : Span) : Span :=
  carry (Int.tdiv d.second 2) (Int.tdiv d.nano 2 + Int.tdiv (Int.tmod d.second 2 * billion) 2)

end Span

namespace Instant

/-- Nanoseconds since 1970-01-01T00:00:00Z. -/
def nanos (t : Instant) : Int := t.second * billion + t.nano

def firstDay : Int := (Date.mk (-262143) 1 1).dayNumber

def lastDay : Int := (Date.mk 262142 12 31).dayNumber

/-- Whether there is a day for the instant. -/
def isDated (t : Instant) : Bool :=
  firstDay ≤ t.second / 86400 && t.second / 86400 ≤ lastDay

/-- The span from `b` to `a`: that between their days, and that between their times of day. -/
def since? (a b : Instant) : Option Span := do
  let days ← Span.of? ((a.second / 86400 - b.second / 86400) * 86400) 0
  let passed : Int :=
    if b.secondOfDay < a.secondOfDay && b.inLeapSecond then 1
    else if a.secondOfDay < b.secondOfDay && a.inLeapSecond then -1
    else 0
  -- the nanoseconds may go back, and then borrow a second
  let nano : Int := a.nano - b.nano
  let time ← Span.of? (a.secondOfDay - b.secondOfDay + passed + nano / billion) (nano % billion)
  days.add? time

/-- The instant a span later, if there is a day for it. -/
def plus? (t : Instant) (d : Span) : Option Instant :=
  if (t.plus d.nanos).isDated then some (t.plus d.nanos) else none

/-- The instant halfway from `a` to `b`, by way of the span between them. -/
def midpoint? (a b : Instant) : Option Instant := do
  let d ← b.since? a
  a.plus? d.half

end Instant

end TokenKeeper.Time
