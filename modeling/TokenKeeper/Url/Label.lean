import TokenKeeper.Text.Ranges
import TokenKeeper.Url.Punycode
/-!
# Labels

The parts of a host's name between its dots. A name is the same in capitals and in wide letters, so
each label is kept in small letters of the usual width. A label that is not ASCII then stands in
the form of `Punycode` behind the mark `xn--`.
-/
namespace TokenKeeper.Url.Label

/-- Letters that come with a second form of the same name: every `step`-th one from `first` to
`last`, and the form in which `first` is kept; the others follow it in the same steps. -/
structure Forms where
  first : Nat
  last : Nat
  step : Nat
  kept : Nat
deriving DecidableEq, Repr

/-- Capitals by alphabet, the wide forms of ASCII, and other forms of the blank and the dot. -/
def forms : List Forms :=
  [⟨0x41, 0x5a, 1, 0x61⟩, ⟨0xa0, 0xa0, 1, 0x20⟩, ⟨0xc0, 0xd6, 1, 0xe0⟩, ⟨0xd8, 0xde, 1, 0xf8⟩,
   ⟨0x100, 0x12e, 2, 0x101⟩, ⟨0x134, 0x136, 2, 0x135⟩, ⟨0x139, 0x13d, 2, 0x13a⟩,
   ⟨0x141, 0x147, 2, 0x142⟩, ⟨0x14a, 0x176, 2, 0x14b⟩, ⟨0x178, 0x178, 1, 0xff⟩,
   ⟨0x179, 0x17d, 2, 0x17a⟩, ⟨0x17f, 0x17f, 1, 0x73⟩, ⟨0x1cd, 0x1db, 2, 0x1ce⟩,
   ⟨0x1de, 0x1ee, 2, 0x1df⟩, ⟨0x1f8, 0x21e, 2, 0x1f9⟩, ⟨0x222, 0x232, 2, 0x223⟩,
   ⟨0x246, 0x24e, 2, 0x247⟩, ⟨0x386, 0x386, 1, 0x3ac⟩, ⟨0x388, 0x38a, 1, 0x3ad⟩,
   ⟨0x38c, 0x38c, 1, 0x3cc⟩, ⟨0x38e, 0x38f, 1, 0x3cd⟩, ⟨0x391, 0x3a1, 1, 0x3b1⟩,
   ⟨0x3a3, 0x3ab, 1, 0x3c3⟩, ⟨0x3d8, 0x3ee, 2, 0x3d9⟩, ⟨0x400, 0x40f, 1, 0x450⟩,
   ⟨0x410, 0x42f, 1, 0x430⟩, ⟨0x460, 0x480, 2, 0x461⟩, ⟨0x48a, 0x4be, 2, 0x48b⟩,
   ⟨0x4c0, 0x4c0, 1, 0x4cf⟩, ⟨0x4c1, 0x4cd, 2, 0x4c2⟩, ⟨0x4d0, 0x52e, 2, 0x4d1⟩,
   ⟨0x531, 0x556, 1, 0x561⟩, ⟨0x1c90, 0x1cba, 1, 0x10d0⟩, ⟨0x1e00, 0x1e94, 2, 0x1e01⟩,
   ⟨0x1ea0, 0x1efe, 2, 0x1ea1⟩, ⟨0x1f08, 0x1f0f, 1, 0x1f00⟩, ⟨0x1f18, 0x1f1d, 1, 0x1f10⟩,
   ⟨0x1f28, 0x1f2f, 1, 0x1f20⟩, ⟨0x1f38, 0x1f3f, 1, 0x1f30⟩, ⟨0x1f48, 0x1f4d, 1, 0x1f40⟩,
   ⟨0x1f68, 0x1f6f, 1, 0x1f60⟩, ⟨0x24b6, 0x24cf, 1, 0x61⟩, ⟨0x24d0, 0x24e9, 1, 0x61⟩,
   ⟨0x2c00, 0x2c2f, 1, 0x2c30⟩, ⟨0x2c80, 0x2ce2, 2, 0x2c81⟩, ⟨0xa640, 0xa66c, 2, 0xa641⟩,
   ⟨0xa680, 0xa69a, 2, 0xa681⟩, ⟨0xa722, 0xa72e, 2, 0xa723⟩, ⟨0xa732, 0xa76e, 2, 0xa733⟩,
   ⟨0x3000, 0x3000, 1, 0x20⟩, ⟨0x3002, 0x3002, 1, 0x2e⟩, ⟨0xff01, 0xff20, 1, 0x21⟩,
   ⟨0xff21, 0xff3a, 1, 0x61⟩, ⟨0xff3b, 0xff5e, 1, 0x5b⟩, ⟨0xff61, 0xff61, 1, 0x2e⟩]

/-- The form in which a character is kept. -/
def keep (c : Char) : Char :=
  let n := c.toNat
  match forms.find? fun f => f.first ≤ n && n ≤ f.last && (n - f.first) % f.step == 0 with
  | some f => Char.ofNat (f.kept + (n - f.first))
  | none => c

/-- Characters that a name is read without. -/
def isIgnored (c : Char) : Bool :=
  let n := c.toNat
  [0xad, 0x34f, 0x180b, 0x180c, 0x180d, 0x180f, 0x200b, 0x2060, 0x2064, 0xfeff].contains n ||
    (0xfe00 ≤ n && n ≤ 0xfe0f) || (0xe0100 ≤ n && n ≤ 0xe01ef)

/-- Values that no label may have: controls, joiners, marks of direction and of lines, values for
private use, those that stand for no character, and the mark for what could not be decoded. -/
def refusedRanges : List (Nat × Nat) :=
  [(0x80, 0x9f), (0x61c, 0x61c), (0x180e, 0x180e), (0x200c, 0x200f), (0x2028, 0x202e),
   (0x2061, 0x2063), (0x2065, 0x206f), (0xe000, 0xf8ff), (0xfdd0, 0xfdef), (0xfff0, 0xffff),
   (0xe0000, 0xe00ff), (0xe01f0, 0x10ffff)]

def normalize (s : List Char) : List Char := (s.filter (!isIgnored ·)).map keep

def isAscii (s : List Char) : Bool := s.all (·.toNat < 0x80)

def isRefused (s : List Char) : Bool := s.any (Text.inRanges refusedRanges)

/-- A label in ASCII. Behind the mark only a label that would itself be kept as it is may stand. -/
def ascii? (label : List Char) : Option (List Char) :=
  match label with
  | 'x' :: 'n' :: '-' :: '-' :: coded =>
    if isAscii coded then
      (Punycode.decode? coded).bind fun name =>
        if isAscii name || isRefused name || normalize name != name then none else some label
    else none
  | _ =>
    if isAscii label then some label
    else if isRefused label then none
    else some ("xn--".toList ++ Punycode.encode label)

/-- A name in ASCII. -/
def name? (s : List Char) : Option (List Char) :=
  ((normalize s).splitOn '.').mapM ascii? |>.map ['.'].intercalate

end TokenKeeper.Url.Label
