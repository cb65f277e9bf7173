import TokenKeeper.Time.Instant
/-!
# RFC 3339 timestamps

Reading and writing of `2024-01-01T00:00:00.5+01:30`. A blank may stand for the `T`, letters
may be lower case, second 60 is a leap second, digits of the fraction beyond the ninth are
skipped. Reading goes from left to right and reports the first fault it meets.
-/
namespace TokenKeeper.Time

inductive Fault where
  /-- It ends too early. -/
  | premature
  /-- A character stands where another is required. -/
  | invalid
  /-- A number names no such day, time or offset. -/
  | outOfRange
  /-- Something follows the offset. -/
  | trailing
deriving DecidableEq, Repr

def Fault.message : Fault → String
  | premature => "premature end of input"
  | invalid => "input contains invalid characters"
  | outOfRange => "input is out of range"
  | trailing => "trailing input"

namespace Rfc3339

def digit (c : Char) : Except Fault Nat :=
  if c.isDigit then .ok (c.toNat - 48) else .error .invalid

def digits : Nat → Nat → List Char → Except Fault (Nat × List Char)
  | 0, value, cs => .ok (value, cs)
  | _ + 1, _, [] => .error .premature
  | n + 1, value, c :: cs => do
    let d ← digit c
    digits n (value * 10 + d) cs

def oneOf (allowed : List Char) : List Char → Except Fault (List Char)
  | [] => .error .premature
  | c :: cs => if allowed.contains c then .ok cs else .error .invalid

/-- Up to `n` digits of a fraction, each worth a tenth of the one before, in nanoseconds. -/
def fractionDigits : Nat → Nat → List Char → Nat × List Char
  | 0, value, cs => (value, cs.dropWhile Char.isDigit)
  | n + 1, value, [] => (value * Nat.pow 10 (n + 1), [])
  | n + 1, value, c :: cs =>
    if c.isDigit then fractionDigits n (value * 10 + (c.toNat - 48)) cs
    else (value * Nat.pow 10 (n + 1), c :: cs)

def fraction : List Char → Except Fault (Nat × List Char)
  | '.' :: [] => .error .premature
  | '.' :: c :: cs => if c.isDigit then .ok (fractionDigits 9 0 (c :: cs)) else .error .invalid
  | cs => .ok (0, cs)

/-- The two digits of an hour or minute of the offset. -/
def pair (cs : List Char) : Except Fault (Nat × Nat × List Char) :=
  match cs with
  | a :: b :: rest =>
    if a.isDigit && b.isDigit then .ok (a.toNat - 48, b.toNat - 48, rest) else .error .invalid
  | [a] => if a.utf8Size < 2 then .error .premature else .error .invalid
  | [] => .error .premature

/-- The offset of the local time from UTC in seconds. -/
def offset : List Char → Except Fault (Int × List Char)
  | [] => .error .premature
  | sign :: cs =>
    if sign == 'Z' || sign == 'z' then .ok (0, cs)
    else if sign == '+' || sign == '-' || sign == '\u2212' then do
      let (h₁, h₂, cs) ← pair cs
      let cs ← oneOf [':'] cs
      let (m₁, m₂, cs) ← pair cs
      if 5 < m₁ then throw .outOfRange
      let seconds : Int := ((h₁ * 10 + h₂) * 3600 + (m₁ * 10 + m₂) * 60 : Nat)
      return (if sign == '+' then seconds else -seconds, cs)
    else .error .invalid

def parse (s : String) : Except Fault Instant := do
  if s.utf8ByteSize < 19 then throw .premature
  let (year, cs) ← digits 4 0 s.toList
  let cs ← oneOf ['-'] cs
  let (month, cs) ← digits 2 0 cs
  let cs ← oneOf ['-'] cs
  let (day, cs) ← digits 2 0 cs
  let date : Date := ⟨year, month, day⟩
  if !date.exists? then throw .outOfRange
  let cs ← oneOf ['T', 't', ' '] cs
  let (hour, cs) ← digits 2 0 cs
  let cs ← oneOf [':'] cs
  let (minute, cs) ← digits 2 0 cs
  let cs ← oneOf [':'] cs
  let (second, cs) ← digits 2 0 cs
  let (nano, cs) ← fraction cs
  if 23 < hour || 59 < minute || 60 < second then throw .outOfRange
  let (east, cs) ← offset cs
  if !cs.isEmpty then throw .trailing
  if 86400 ≤ east.natAbs then throw .outOfRange
  let leap := second == 60
  let localSecond : Int :=
    date.dayNumber * 86400 + hour * 3600 + minute * 60 + (if leap then 59 else second : Nat)
  return ⟨localSecond - east, if leap then nano + 1000000000 else nano⟩

def padded (width n : Nat) : String :=
  let ds := Nat.toDigits 10 n
  String.ofList (List.replicate (width - ds.length) '0' ++ ds)

/-- Years of four digits stand alone, all others carry a sign. -/
def yearText (y : Int) : String :=
  if 0 ≤ y && y ≤ 9999 then padded 4 y.toNat
  else (if y < 0 then "-" else "+") ++ padded 4 y.natAbs

/-- Three, six or nine digits, as many as the fraction needs; none for a whole second. -/
def fractionText (nano : Nat) : String :=
  if nano == 0 then ""
  else if nano % 1000000 == 0 then "." ++ padded 3 (nano / 1000000)
  else if nano % 1000 == 0 then "." ++ padded 6 (nano / 1000)
  else "." ++ padded 9 nano

def render (t : Instant) : String :=
  let date := Date.ofDayNumber (t.second / 86400)
  let s := t.secondOfDay.toNat
  let second := s % 60 + t.nano / 1000000000
  yearText date.year ++ "-" ++ padded 2 date.month ++ "-" ++ padded 2 date.day ++ "T"
    ++ padded 2 (s / 3600) ++ ":" ++ padded 2 (s / 60 % 60) ++ ":" ++ padded 2 second
    ++ fractionText (t.nano % 1000000000) ++ "+00:00"

end Rfc3339

end TokenKeeper.Time
