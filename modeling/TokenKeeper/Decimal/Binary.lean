/-!
# Binary floating point numbers

Numbers `mantissa * 2 ^ exponent` with 53 bits of mantissa and exponents from -1074, computed in
exact integer arithmetic: every operation forms the exact result as a quotient and rounds it
once, a tie going to the even neighbour.
-/
namespace TokenKeeper.Decimal

/-- A finite number without its sign. The mantissa is below `2 ^ 53`, and at least `2 ^ 52`
unless the exponent is the least one. -/
structure Binary where
  mantissa : Nat
  exponent : Int
deriving DecidableEq, Repr

def leastExponent : Int := -1074

/-- The least mantissa of a number that is not tiny: `2 ^ 52`. -/
def leastMantissa : Nat := 0x10000000000000

/-- The quotient as a pair of naturals, of which the second is a multiple of `2 ^ e`. -/
def overPower (num den : Nat) (e : Int) : Nat × Nat :=
  if 0 ≤ e then (num, den * Nat.pow 2 e.toNat) else (num * Nat.pow 2 (-e).toNat, den)

/-- The number nearest to `num / den`; none if it is beyond the largest. -/
def nearest (num den : Nat) : Option Binary :=
  if num = 0 || den = 0 then some ⟨0, leastExponent⟩
  else
    let guess : Int := max leastExponent ((num.log2 : Int) - den.log2 - 52)
    let (n, d) := overPower num den guess
    let e : Int :=
      if 2 * leastMantissa ≤ n / d then guess + 1
      else if n / d < leastMantissa then max leastExponent (guess - 1)
      else guess
    let (n, d) := overPower num den e
    let q := n / d
    let r := n % d
    let rounded := if d < 2 * r || (2 * r == d && q % 2 == 1) then q + 1 else q
    let (m, e) := if rounded = 2 * leastMantissa then (leastMantissa, e + 1) else (rounded, e)
    if 971 < e then none else some ⟨m, e⟩

namespace Binary

def ratio (x : Binary) : Nat × Nat :=
  if 0 ≤ x.exponent then (x.mantissa * Nat.pow 2 x.exponent.toNat, 1)
  else (x.mantissa, Nat.pow 2 (-x.exponent).toNat)

def times (x y : Binary) : Option Binary :=
  let (a, b) := x.ratio
  let (c, d) := y.ratio
  nearest (a * c) (b * d)

def quotient (x y : Binary) : Option Binary :=
  let (a, b) := x.ratio
  let (c, d) := y.ratio
  nearest (a * d) (b * c)

end Binary

def digitCount (n : Nat) : Nat := (Nat.toDigits 10 n).length

/-- The number nearest to `digits * 10 ^ exponent`; none if it is beyond the largest. Exponents
far out of range are decided without forming the power. -/
def ofDecimal (digits : Nat) (exponent : Int) : Option Binary :=
  let magnitude := (digitCount digits : Int) + exponent
  if digits = 0 || magnitude < -330 then some ⟨0, leastExponent⟩
  else if 310 < magnitude then none
  else if 0 ≤ exponent then nearest (digits * Nat.pow 10 exponent.toNat) 1
  else nearest digits (Nat.pow 10 (-exponent).toNat)

end TokenKeeper.Decimal
