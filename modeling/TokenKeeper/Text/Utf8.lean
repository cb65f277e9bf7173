/-!
# UTF-8

Bytes and the characters they stand for. Decoding is one left-to-right pass: a malformed
sequence ends at the first byte that cannot continue it, and that byte starts the next one.
-/
namespace TokenKeeper

/-- The content of a file, a header value or a message body. -/
abbrev Bytes := List UInt8

namespace Text.Utf8

/-- A character whose first bytes have been read: the bits so far, how many bytes are still
to come, and the bounds of the next one. -/
structure Pending where
  bits : Nat
  left : Nat
  low : Nat
  high : Nat

/-- What a byte at the start of a sequence is. -/
inductive Lead where
  | whole (c : Char)
  | opens (p : Pending)
  | malformed

/-- The first byte fixes the length of a sequence; the bounds of the second exclude overlong
forms, surrogates and code points beyond the last. -/
def lead (b : UInt8) : Lead :=
  let n := b.toNat
  if n < 0x80 then .whole (Char.ofNat n)
  else if n < 0xC2 then .malformed
  else if n < 0xE0 then .opens ⟨n - 0xC0, 1, 0x80, 0xBF⟩
  else if n = 0xE0 then .opens ⟨0, 2, 0xA0, 0xBF⟩
  else if n = 0xED then .opens ⟨0xD, 2, 0x80, 0x9F⟩
  else if n < 0xF0 then .opens ⟨n - 0xE0, 2, 0x80, 0xBF⟩
  else if n = 0xF0 then .opens ⟨0, 3, 0x90, 0xBF⟩
  else if n < 0xF4 then .opens ⟨n - 0xF0, 3, 0x80, 0xBF⟩
  else if n = 0xF4 then .opens ⟨4, 3, 0x80, 0x8F⟩
  else .malformed

/-- The characters in order; `none` stands for one malformed sequence. -/
def scan : Option Pending → Bytes → List (Option Char)
  | none, [] => []
  | some _, [] => [none]
  | none, b :: bs =>
    match lead b with
    | .whole c => some c :: scan none bs
    | .opens p => scan (some p) bs
    | .malformed => none :: scan none bs
  | some p, b :: bs =>
    if p.low ≤ b.toNat && b.toNat ≤ p.high then
      let bits := p.bits * 64 + b.toNat % 64
      if p.left ≤ 1 then some (Char.ofNat bits) :: scan none bs
      else scan (some ⟨bits, p.left - 1, 0x80, 0xBF⟩) bs
    else
      match lead b with
      | .whole c => none :: some c :: scan none bs
      | .opens q => none :: scan (some q) bs
      | .malformed => none :: none :: scan none bs

/-- Every malformed sequence becomes U+FFFD. -/
def decodeLossy (bs : Bytes) : String :=
  String.ofList ((scan none bs).map fun c => c.getD '\uFFFD')

def decode? (bs : Bytes) : Option String :=
  ((scan none bs).mapM id).map String.ofList

def encodeChar (c : Char) : Bytes :=
  let n := c.toNat
  if n < 0x80 then [n.toUInt8]
  else if n < 0x800 then [(0xC0 + n / 64).toUInt8, (0x80 + n % 64).toUInt8]
  else if n < 0x10000 then
    [(0xE0 + n / 4096).toUInt8, (0x80 + n / 64 % 64).toUInt8, (0x80 + n % 64).toUInt8]
  else
    [(0xF0 + n / 262144).toUInt8, (0x80 + n / 4096 % 64).toUInt8, (0x80 + n / 64 % 64).toUInt8,
      (0x80 + n % 64).toUInt8]

def encode (s : String) : Bytes :=
  s.toList.flatMap encodeChar

end Text.Utf8

end TokenKeeper
