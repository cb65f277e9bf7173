import TokenKeeper.Decimal.Shortest
/-!
# Numbers in JSON texts

A number as it is written, and the number it is taken for: an integer if it has neither
fraction nor exponent and fits into 64 bits, otherwise a binary floating point number. The
latter is formed from at most twenty leading digits by one conversion and one multiplication or
division by a power of ten, each rounded.
-/
namespace TokenKeeper.Json

structure Numeral where
  negative : Bool
  whole : List Char
  fraction : List Char
  /-- The sign of the exponent and its digits. -/
  exponent : Option (Bool × List Char)
deriving DecidableEq, Repr

/-- What a number is taken for. -/
inductive Number where
  | integer (n : Int)
  | float (negative : Bool) (x : Decimal.Binary)
deriving DecidableEq, Repr

namespace Numeral

def largest : Nat := 0xFFFFFFFFFFFFFFFF

/-- Takes digits while the number they form fits; the rest is returned. -/
def takeFitting : Nat → List Char → Nat × List Char
  | n, [] => (n, [])
  | n, c :: cs =>
    let m := n * 10 + (c.toNat - 48)
    if largest < m then (n, c :: cs) else takeFitting m cs

def powerOfTen (e : Nat) : Option Decimal.Binary := Decimal.nearest (Nat.pow 10 e) 1

/-- Scales by a power of ten: at most 308 at a time downwards, in one step upwards. -/
def scale : Nat → Decimal.Binary → Int → Option Decimal.Binary
  | 0, x, _ => some x
  | steps + 1, x, e =>
    if x.mantissa = 0 then some x
    else if 308 < e then none
    else if 0 ≤ e then (powerOfTen e.toNat).bind x.times
    else if -308 ≤ e then (powerOfTen (-e).toNat).bind x.quotient
    else ((powerOfTen 308).bind x.quotient).bind fun y => scale steps y (e + 308)

/-- The significant digits and the power of ten they are multiplied by, before the exponent. -/
def significand (n : Numeral) : Nat × Int :=
  match takeFitting 0 n.whole with
  | (s, []) =>
    let (t, rest) := takeFitting s n.fraction
    (t, -((n.fraction.length : Int) - rest.length))
  | (s, rest) =>
    let (t, unread) := takeFitting s n.fraction
    (t, (rest.length : Int) - ((n.fraction.length : Int) - unread.length))

/-- The value of the exponent; one that does not fit into 31 bits is as good as infinite. -/
def exponentValue (n : Numeral) : Int :=
  match n.exponent with
  | none => 0
  | some (negative, ds) =>
    let v := ds.foldl (fun (v : Nat) (c : Char) => min 0x80000000 (v * 10 + (c.toNat - 48))) 0
    if negative then -(v : Int) else v

/-- The number it is taken for; none if it is beyond the largest floating point number. -/
def number? (n : Numeral) : Option Number :=
  match n.fraction, n.exponent, takeFitting 0 n.whole with
  | [], none, (s, []) =>
    if !n.negative then some (.integer s)
    else if 0 < s && s ≤ largest / 2 + 1 then some (.integer (-(s : Int)))
    else (Decimal.nearest s 1).map (.float true)
  | _, _, _ =>
    let (s, e) := n.significand
    let total := e + n.exponentValue
    ((Decimal.nearest s 1).bind fun x => scale 4 x (max (-1200) total)).map (.float n.negative)

end Numeral

/-- How a message shows a floating point number: plain from `0.00001` up to below `10^16`. -/
def floatText (negative : Bool) (x : Decimal.Binary) : String :=
  let d := x.digits
  let plain := -5 ≤ d.leading && d.leading ≤ 15
  String.ofList
    ((if negative then ['-'] else []) ++ if plain then d.positional else d.scientific)

end TokenKeeper.Json
