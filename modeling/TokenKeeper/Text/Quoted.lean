import TokenKeeper.Text.Visible
/-!
# Quoted text

A text between double quotes, as messages and records show it: quotes, backslashes and the
common controls are written with a backslash, every other character that is not visible by its
code point in hexadecimal.
-/
namespace TokenKeeper.Text

/-- A backslash, `u` and the code point between braces. -/
def codePointEscape (c : Char) : List Char :=
  ['\\', 'u', '{'] ++ Nat.toDigits 16 c.toNat ++ ['}']

def quotedChar (c : Char) : List Char :=
  if c == '\x00' then ['\\', '0']
  else if c == '\t' then ['\\', 't']
  else if c == '\n' then ['\\', 'n']
  else if c == '\r' then ['\\', 'r']
  else if c == '"' then ['\\', '"']
  else if c == '\\' then ['\\', '\\']
  else if isVisible c then [c]
  else codePointEscape c

/-- The text in double quotes. -/
def quoted (s : String) : String :=
  String.ofList ('"' :: s.toList.flatMap quotedChar ++ ['"'])

end TokenKeeper.Text
