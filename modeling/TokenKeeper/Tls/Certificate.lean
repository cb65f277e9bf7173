import TokenKeeper.Tls.Der
import TokenKeeper.Tls.Pem
/-!
# Certificates and private keys

As much of certificates and keys as decides whether they can be used: their structure, and whether
a key belongs to a certificate. It does if the certificate describes the public half of the key.
-/
namespace TokenKeeper
open Der

/-- What is known of a certificate: whether it has the current version, and its description of a
public key. -/
structure Certificate where
  current : Bool
  keyInfo : Bytes
deriving DecidableEq, Repr

namespace Certificate

def extensionsFit (items : List Item) : Bool :=
  match items with
  | [] => true
  | [e] =>
    e.tag == context 3 &&
      match items? e.content with
      | some [list] => ((list.parts? sequence).any fun es => es.all (·.tag == sequence))
      | _ => false
  | _ => false

/-- What follows the version: number, signature algorithm, issuer, validity, subject, the public
key and extensions. `algorithm` is what the signature itself names. -/
def body? (algorithm : Item) (current : Bool) (items : List Item) : Option Certificate :=
  match items with
  | number :: signature :: issuer :: validity :: subject :: key :: extensions =>
    if number.tag == integer && signature == algorithm
        && [issuer, validity, subject, key].all (·.tag == sequence)
        && (if current then extensionsFit extensions else extensions.isEmpty) then
      some ⟨current, key.content⟩
    else none
  | _ => none

def ofDer? (der : Bytes) : Option Certificate :=
  match inside? sequence der with
  | some [signed, algorithm, signature] =>
    if algorithm.tag == sequence && signature.bits?.isSome then
      match signed.parts? sequence with
      | some (version :: rest) =>
        if version.tag == context 0 then
          if version.content == [0x02, 0x01, 0x02] then body? algorithm true rest else none
        else body? algorithm false (version :: rest)
      | _ => none
    else none
  | _ => none

end Certificate

/-- What is known of a private key: the description of its public half, where it can be told
without arithmetic. -/
structure PrivateKey where
  keyInfo : Option Bytes
deriving DecidableEq, Repr

namespace PrivateKey

/-- The names of kinds of keys. -/
def ellipticName : Bytes := [0x2A, 0x86, 0x48, 0xCE, 0x3D, 0x02, 0x01]

@[inherit_doc ellipticName]
def rsaName : Bytes := [0x2A, 0x86, 0x48, 0x86, 0xF7, 0x0D, 0x01, 0x01, 0x01]

@[inherit_doc ellipticName]
def edwardsName : Bytes := [0x2B, 0x65, 0x70]

def nameTag : UInt8 := 0x06

def curves : List Bytes := [
  [0x2A, 0x86, 0x48, 0xCE, 0x3D, 0x03, 0x01, 0x07],
  [0x2B, 0x81, 0x04, 0x00, 0x22],
  [0x2B, 0x81, 0x04, 0x00, 0x23]]

/-- The description of a public key: its kind, and its bits. -/
def describe (algorithm : List Item) (bits : Bytes) : Bytes :=
  (Item.mk sequence (algorithm.flatMap Item.bytes)).bytes ++ (Item.mk bitString (0 :: bits)).bytes

/-- The key on an elliptic curve; the curve is named outside or by the key itself. -/
def elliptic? (curve : Option Bytes) (der : Bytes) : Option PrivateKey :=
  match inside? sequence der with
  | some (version :: secret :: rest) =>
    let inner (n : UInt8) : Option Item :=
      ((rest.find? (·.tag == context n)).bind fun i => items? i.content).bind List.head?
    match curve.or ((inner 0).bind (·.content? nameTag)) with
    | some curve =>
      if version == ⟨integer, [1]⟩ && secret.tag == octetString && curves.contains curve then
        let algorithm : List Item := [⟨nameTag, ellipticName⟩, ⟨nameTag, curve⟩]
        some ⟨((inner 1).bind Item.bits?).map (describe algorithm)⟩
      else none
    | none => none
  | _ => none

/-- The key of two factors. -/
def rsa? (der : Bytes) : Option PrivateKey :=
  match inside? sequence der with
  | some (version :: modulus :: exponent :: rest) =>
    if version == ⟨integer, [0]⟩ && (modulus :: exponent :: rest).all (·.tag == integer)
        && rest.length == 6 then
      some ⟨some (describe [⟨nameTag, rsaName⟩, ⟨0x05, []⟩]
        (Item.mk sequence (modulus.bytes ++ exponent.bytes)).bytes)⟩
    else none
  | _ => none

/-- The key of any kind, with its kind named in front. -/
def named? (der : Bytes) : Option PrivateKey :=
  match inside? sequence der with
  | some (version :: algorithm :: secret :: _) =>
    if version.tag != integer then none
    else
      match algorithm.parts? sequence, secret.content? octetString with
      | some (name :: parameters), some der =>
        if name == ⟨nameTag, ellipticName⟩ then
          match parameters with
          | [curve] => elliptic? (curve.content? nameTag) der
          | _ => none
        else if name == ⟨nameTag, rsaName⟩ then rsa? der
        else if name == ⟨nameTag, edwardsName⟩ then some ⟨none⟩
        else none
      | _, _ => none
  | _ => none

/-- The key of a section; none if it is no key or not one that can be used. -/
def ofSection? (s : Pem.Section) : Option PrivateKey :=
  match s.kind with
  | .privateKey => named? s.content
  | .rsaKey => rsa? s.content
  | .ecKey => elliptic? none s.content
  | _ => none

/-- Whether the key belongs to the certificate, as far as it can be told. -/
def belongsTo (k : PrivateKey) (c : Certificate) : Bool :=
  k.keyInfo.all (· == c.keyInfo)

end PrivateKey

end TokenKeeper
