import TokenKeeper.Text.Utf8
/-!
# Tagged values

The binary form of certificates and keys: a tag, the length of the content, and the content, which
is bytes or more tagged values. Every value has one form only.
-/
namespace TokenKeeper.Der

structure Item where
  tag : UInt8
  content : Bytes
deriving DecidableEq, Repr

def integer : UInt8 := 0x02

def bitString : UInt8 := 0x03

def octetString : UInt8 := 0x04

def sequence : UInt8 := 0x30

/-- The tag of a row of values that only its context explains. -/
def context (n : UInt8) : UInt8 := 0xA0 + n

/-- The number that bytes spell, the most significant first. -/
def number (bytes : Bytes) : Nat := bytes.foldl (fun n b => n * 256 + b.toNat) 0

/-- The length at the front of a text. A length below 128 is one byte; a longer one takes as few
bytes as it needs, at most two. -/
def length? : Bytes → Option (Nat × Bytes)
  | [] => none
  | b :: r =>
    if b < 0x80 then some (b.toNat, r)
    else
      match b, r with
      | 0x81, x :: r => if 0x80 ≤ x then some (x.toNat, r) else none
      | 0x82, x :: y :: r => if x != 0 then some (number [x, y], r) else none
      | _, _ => none

/-- The value at the front of a text, and the rest. -/
def item? : Bytes → Option (Item × Bytes)
  | [] => none
  | tag :: r =>
    if tag &&& 0x1F == 0x1F then none
    else
      (length? r).bind fun (n, r) =>
        if n ≤ r.length then some (⟨tag, r.take n⟩, r.drop n) else none

/-- All values of a text; as many as it has bytes at the most. -/
def itemsUpTo : Nat → Bytes → Option (List Item)
  | 0, text => if text.isEmpty then some [] else none
  | n + 1, text =>
    if text.isEmpty then some []
    else (item? text).bind fun (i, rest) => (itemsUpTo n rest).map (i :: ·)

def items? (text : Bytes) : Option (List Item) := itemsUpTo text.length text

/-- The values inside the one value that a text is, if it has that tag. -/
def inside? (tag : UInt8) (text : Bytes) : Option (List Item) :=
  match items? text with
  | some [i] => if i.tag == tag then items? i.content else none
  | _ => none

namespace Item

def parts? (i : Item) (tag : UInt8) : Option (List Item) :=
  if i.tag == tag then items? i.content else none

def content? (i : Item) (tag : UInt8) : Option Bytes :=
  if i.tag == tag then some i.content else none

/-- The bytes of a string of whole bytes. -/
def bits? (i : Item) : Option Bytes :=
  match i.tag == bitString, i.content with
  | true, 0 :: bytes => some bytes
  | _, _ => none

def lengthBytes (n : Nat) : Bytes :=
  if n < 0x80 then [n.toUInt8]
  else if n < 0x100 then [0x81, n.toUInt8]
  else [0x82, (n / 0x100).toUInt8, n.toUInt8]

def bytes (i : Item) : Bytes := i.tag :: lengthBytes i.content.length ++ i.content

end Item

end TokenKeeper.Der
