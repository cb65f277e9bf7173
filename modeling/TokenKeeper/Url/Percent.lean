import TokenKeeper.Text.Utf8
/-!
# Percent encoding

A character that may not stand in a part of a url is written as its UTF-8 bytes, each as a percent
sign and two digits. Which characters those are depends on the part. What is already written that
way is left alone.
-/
namespace TokenKeeper.Url

/-- A digit of base sixteen, in capitals. -/
def hexDigit (n : Nat) : Char := (Nat.digitChar n).toUpper

def escape (b : UInt8) : List Char := ['%', hexDigit (b.toNat / 16), hexDigit (b.toNat % 16)]

/-- Control characters and all that is not ASCII. -/
def isControl (c : Char) : Bool := c.toNat < 0x20 || 0x7E < c.toNat

/-- What may not stand in a fragment. -/
def notInFragment (c : Char) : Bool := isControl c || [' ', '"', '<', '>', '\x60'].contains c

/-- What may not stand in a query; that of a known scheme has no apostrophe either. -/
def notInQuery (isKnown : Bool) (c : Char) : Bool :=
  isControl c || [' ', '"', '#', '<', '>'].contains c || (isKnown && c == '\'')

/-- What may not stand in a path. -/
def notInPath (c : Char) : Bool := notInFragment c || ['#', '?', '\x7b', '\x7d'].contains c

/-- What may not stand in a user's name or password. -/
def notInUser (c : Char) : Bool :=
  notInPath c || ['/', ':', ';', '=', '@', '[', '\\', ']', '^', '|'].contains c

def percentEncode (mayNot : Char → Bool) (s : List Char) : List Char :=
  s.flatMap fun c =>
    if mayNot c then (Text.Utf8.encode (String.ofList [c])).flatMap escape else [c]

def hexValue? (b : UInt8) : Option UInt8 :=
  if 48 ≤ b && b ≤ 57 then some (b - 48)
  else if 65 ≤ b && b ≤ 70 then some (b - 55)
  else if 97 ≤ b && b ≤ 102 then some (b - 87)
  else none

/-- The bytes that a text stands for; a percent sign without two digits stands for itself. -/
def percentDecode : Bytes → Bytes
  | 37 :: a :: b :: rest =>
    match hexValue? a, hexValue? b with
    | some x, some y => (x * 16 + y) :: percentDecode rest
    | _, _ => 37 :: percentDecode (a :: b :: rest)
  | b :: rest => b :: percentDecode rest
  | [] => []

end TokenKeeper.Url
