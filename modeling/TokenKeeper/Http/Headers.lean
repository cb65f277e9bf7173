import TokenKeeper.Text.Utf8
/-!
# Headers

The headers of a message in their order. A name may occur several times and is kept in lower case,
so that names are compared without regard to case.
-/
namespace TokenKeeper.Http

/-- A header. A sensitive one is not shown where messages are displayed. -/
structure Header where
  name : String
  value : Bytes
  isSensitive : Bool
deriving DecidableEq, Repr

abbrev Headers := List Header

def isLegal (b : UInt8) : Bool := b == 9 || (32 ≤ b && b != 127)

/-- Whether a byte of a header's value is a visible character of ASCII or a blank. -/
def isVisible (b : UInt8) : Bool := b == 9 || (32 ≤ b && b < 127)

/-- The value of a header made from a text; none if the text cannot stand in a header. -/
def headerValue? (s : String) : Option Bytes :=
  let value := Text.Utf8.encode s
  if value.all isLegal then some value else none

/-- The text of a header's value; none if it is not visible throughout. -/
def visibleText? (value : Bytes) : Option String :=
  if value.all isVisible then some (Text.Utf8.decodeLossy value) else none

/-- The value without the blanks around it. -/
def trimValue (value : Bytes) : Bytes :=
  let isBlank (b : UInt8) : Bool := b == 32 || b == 9
  ((value.dropWhile isBlank).reverse.dropWhile isBlank).reverse

/-- A header as a message carries it: with its name in lower case. -/
def Header.of (name : String) (value : Bytes) : Header :=
  ⟨String.ofList (name.toList.map Char.toLower), value, false⟩

namespace Headers

def first? (hs : Headers) (name : String) : Option Bytes :=
  (hs.find? (·.name == name)).map Header.value

def without (hs : Headers) (name : String) : Headers := hs.filter (·.name != name)

/-- The headers with one of that name in place of all that were there. -/
def set (hs : Headers) (h : Header) : Headers := hs.without h.name ++ [h]

end Headers

end TokenKeeper.Http
