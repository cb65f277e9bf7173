/-!
# Classes of characters

A class is a list of inclusive code point ranges in increasing order. The tables beside this
module list the members beyond ASCII; the ASCII part of a class is spelled out by its test.
-/
namespace TokenKeeper.Text

/-- Whether the code point of `c` lies in one of the ranges. -/
def inRanges (ranges : List (Nat × Nat)) (c : Char) : Bool :=
  ranges.any fun r => r.1 ≤ c.toNat && c.toNat ≤ r.2

end TokenKeeper.Text
