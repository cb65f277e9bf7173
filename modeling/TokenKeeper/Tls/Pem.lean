import TokenKeeper.Text.Base64
/-!
# Sections of a PEM file

A file of lines in which some sections, between a line that begins them and a line that ends them,
hold a certificate, a key or the like in base64. Lines outside of sections are comments, and so
are sections with a label that is not known.
-/
namespace TokenKeeper.Pem

inductive Kind where
  | certificate
  | publicKey
  | rsaKey
  | privateKey
  | ecKey
  | revocationList
  | request
  | helloConfig
deriving DecidableEq, Repr

def labels : List (String × Kind) := [
  ("CERTIFICATE", .certificate), ("PUBLIC KEY", .publicKey), ("RSA PRIVATE KEY", .rsaKey),
  ("PRIVATE KEY", .privateKey), ("EC PRIVATE KEY", .ecKey), ("X509 CRL", .revocationList),
  ("CERTIFICATE REQUEST", .request), ("ECHCONFIG", .helloConfig)]

structure Section where
  kind : Kind
  content : Bytes
deriving DecidableEq, Repr

/-- Why a file is not read as sections. -/
inductive Fault where
  /-- A line that begins a section does not end in exactly five dashes. -/
  | opening
  /-- A section's content is not base64. -/
  | content
  /-- A section has no end. -/
  | unclosed
deriving DecidableEq, Repr

/-- The lines of a file; each of the two characters of a line end ends a line. -/
def lines (text : Bytes) : List Bytes := text.splitOnP fun b => b == 10 || b == 13

def opening : Bytes := Text.Utf8.encode "-----BEGIN "

/-- The line that ends a section with that label. -/
def closing (label : Bytes) : Bytes :=
  Text.Utf8.encode "-----END " ++ label ++ Text.Utf8.encode "-----"

/-- The label of a section that begins on that line: what is left without the dashes and blanks at
the end, of which exactly five are dashes. Blanks before the dashes belong to the label. -/
def label? (line : Bytes) : Option Bytes :=
  let tail := (line.reverse.takeWhile fun b => b == 45 || b == 32).reverse
  if tail.countP (· == 45) == 5 then
    let upTo := line.length - (tail.dropWhile (· != 45)).length
    some ((line.take upTo).drop opening.length)
  else none

def kind? (label : Bytes) : Option Kind :=
  (labels.find? fun l => Text.Utf8.encode l.1 == label).map Prod.snd

/-- The section being read: its label and its lines so far. -/
structure Reading where
  label : Option Bytes
  content : Bytes

/-- The sections on the lines that are left. -/
def ofLines : List Bytes → Reading → Except Fault (List Section)
  | [], r => if r.label.isSome then .error .unclosed else .ok []
  | line :: rest, r =>
    if opening.isPrefixOf line then
      match label? line with
      | some label => ofLines rest { r with label := some label }
      | none => .error .opening
    else
      match r.label with
      | none => ofLines rest r
      | some label =>
        if (closing label).isPrefixOf line then
          match kind? label with
          | none => ofLines rest ⟨none, []⟩
          | some kind =>
            match Text.Base64.decode? r.content with
            | some content => (ofLines rest ⟨none, []⟩).map (⟨kind, content⟩ :: ·)
            | none => .error .content
        else ofLines rest { r with content := r.content ++ line }

def sections (text : Bytes) : Except Fault (List Section) := ofLines (lines text) ⟨none, []⟩

end TokenKeeper.Pem
