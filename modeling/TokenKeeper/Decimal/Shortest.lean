import TokenKeeper.Decimal.Binary
/-!
# The shortest decimal

The fewest digits that read back as a given number: for one digit, two digits and so on the
number's two neighbours on that decimal grid are tried, and the first grid with a neighbour
that rounds to the number wins. Of two such neighbours the nearer one is taken.
-/
namespace TokenKeeper.Decimal

/-- `digits * 10 ^ exponent`. -/
structure Digits where
  digits : Nat
  exponent : Int
deriving DecidableEq, Repr

/-- The reals that round to a number, as numerators over one denominator; the ends belong to it
iff the mantissa is even. -/
structure Interval where
  low : Nat
  value : Nat
  high : Nat
  den : Nat
  closed : Bool

/-- Half of the gap to either neighbour; the gap below a power of two is only half as wide. -/
def Binary.interval (x : Binary) : Interval :=
  let below := if x.mantissa = leastMantissa && leastExponent < x.exponent then 1 else 2
  let scale := Nat.pow 2 x.exponent.toNat
  { low := (4 * x.mantissa - below) * scale
    value := 4 * x.mantissa * scale
    high := (4 * x.mantissa + 2) * scale
    den := 4 * Nat.pow 2 (-x.exponent).toNat
    closed := x.mantissa % 2 == 0 }

def Interval.holds (i : Interval) (n d : Nat) : Bool :=
  let a := n * i.den
  if i.closed then i.low * d ≤ a && a ≤ i.high * d else i.low * d < a && a < i.high * d

/-- The greatest `e` up to `bound` with `10 ^ e` not above `num / den`. -/
def decimalMagnitude (num den : Nat) : Int :=
  if den ≤ num then (digitCount (num / den) : Int) - 1
  else
    let k := digitCount (den / num)
    if den ≤ num * Nat.pow 10 (k - 1) then 1 - (k : Int) else -(k : Int)

/-- The nearer of the two neighbours of the value on the grid of multiples of `10 ^ e` that
rounds to the number. -/
def Interval.onGrid (i : Interval) (e : Int) : Option Digits :=
  let up := Nat.pow 10 e.toNat
  let down := Nat.pow 10 (-e).toNat
  let lower := i.value * down / (i.den * up)
  let rest := i.value * down % (i.den * up)
  let fits (n : Nat) : Bool := i.holds (n * up) down
  if fits lower && (!fits (lower + 1) || 2 * rest ≤ i.den * up) then some ⟨lower, e⟩
  else if fits (lower + 1) then some ⟨lower + 1, e⟩
  else none

/-- The first grid with a hit, from the coarsest on. -/
def Interval.search (i : Interval) : Nat → Int → Digits
  | 0, e => ⟨i.value / i.den, e⟩
  | n + 1, e =>
    match i.onGrid e with
    | some d => d
    | none => i.search n (e - 1)

/-- The shortest decimal of a number; seventeen digits always suffice. -/
def Binary.shortest (x : Binary) : Digits :=
  if x.mantissa = 0 then ⟨0, 0⟩
  else
    let i := x.interval
    i.search 17 (decimalMagnitude i.value i.den)

namespace Digits

/-- Zeros at the end move into the exponent. -/
def trimmed : Nat → Digits → Digits
  | 0, d => d
  | n + 1, d =>
    if d.digits % 10 == 0 && d.digits != 0 then trimmed n ⟨d.digits / 10, d.exponent + 1⟩ else d

def leading (d : Digits) : Int := (digitCount d.digits : Int) + d.exponent - 1

/-- Written without an exponent; a whole number gets one zero after the point. -/
def positional (d : Digits) : List Char :=
  let ds := Nat.toDigits 10 d.digits
  if 0 ≤ d.exponent then ds ++ List.replicate d.exponent.toNat '0' ++ ['.', '0']
  else
    let places := (-d.exponent).toNat
    let ds := List.replicate (places + 1 - ds.length) '0' ++ ds
    ds.take (ds.length - places) ++ ['.'] ++ ds.drop (ds.length - places)

/-- Written with one digit before the point and a signed exponent of at least two digits. -/
def scientific (d : Digits) : List Char :=
  let ds := Nat.toDigits 10 d.digits
  let x := d.leading
  let power := Nat.toDigits 10 x.natAbs
  ds.take 1 ++ (if ds.length ≤ 1 then [] else '.' :: ds.drop 1)
    ++ ['e', if x < 0 then '-' else '+']
    ++ List.replicate (2 - power.length) '0' ++ power

end Digits

def Binary.digits (x : Binary) : Digits :=
  let d := x.shortest
  d.trimmed (digitCount d.digits)

end TokenKeeper.Decimal
