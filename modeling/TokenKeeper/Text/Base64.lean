import TokenKeeper.Text.Utf8
/-!
# Base64

Four letters of six bits stand for three bytes. The last group may be shorter, with or without
padding to its full length; blanks and line ends between the letters mean nothing.
-/
namespace TokenKeeper.Text.Base64

def value? (b : UInt8) : Option Nat :=
  let n := b.toNat
  if 65 ≤ n && n ≤ 90 then some (n - 65)
  else if 97 ≤ n && n ≤ 122 then some (n - 71)
  else if 48 ≤ n && n ≤ 57 then some (n + 4)
  else if n == 43 then some 62
  else if n == 47 then some 63
  else none

/-- Whether a byte between the letters means nothing. -/
def isIdle (b : UInt8) : Bool := b == 32 || b == 9 || b == 10 || b == 13

/-- The bytes of a row of six-bit numbers; a single number is not enough for one. -/
def group : List Nat → Option Bytes
  | [] => some []
  | [_] => none
  | [a, b] => some [(a * 4 + b / 16).toUInt8]
  | [a, b, c] => some [(a * 4 + b / 16).toUInt8, (b % 16 * 16 + c / 4).toUInt8]
  | a :: b :: c :: d :: rest =>
    (group rest).map fun bytes =>
      (a * 4 + b / 16).toUInt8 :: (b % 16 * 16 + c / 4).toUInt8 :: (c % 4 * 64 + d).toUInt8 :: bytes

/-- The bytes a text stands for. Padding fills the last group, or is left out. -/
def decode? (text : Bytes) : Option Bytes :=
  let text := text.filter (!isIdle ·)
  let letters := text.takeWhile (· != 61)
  let padding := text.dropWhile (· != 61)
  if padding.isEmpty || (padding.all (· == 61) && padding.length ≤ 2 && text.length % 4 == 0) then
    (letters.mapM value?).bind group
  else none

end TokenKeeper.Text.Base64
