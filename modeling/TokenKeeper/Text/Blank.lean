import TokenKeeper.Text.Ranges
/-!
# Blank characters

White space in the sense of Unicode (`White_Space`), and texts without it at their ends.
-/
namespace TokenKeeper.Text

/-- The white space characters beyond ASCII. -/
def blankRanges : List (Nat × Nat) :=
  [(0x85, 0x85), (0xa0, 0xa0), (0x1680, 0x1680), (0x2000, 0x200a), (0x2028, 0x2029),
   (0x202f, 0x202f), (0x205f, 0x205f), (0x3000, 0x3000)]

/-- White space: tab to carriage return, the space, and `blankRanges`. -/
def isBlank (c : Char) : Bool :=
  c.toNat == 32 || (9 ≤ c.toNat && c.toNat ≤ 13) || inRanges blankRanges c

def trimWhile (p : Char → Bool) (cs : List Char) : List Char :=
  ((cs.dropWhile p).reverse.dropWhile p).reverse

def trimBlank (s : String) : String :=
  String.ofList (trimWhile isBlank s.toList)

end TokenKeeper.Text
