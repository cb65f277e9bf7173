import TokenKeeper.Text.Utf8
import TokenKeeper.Text.Word
/-!
# Placeholders

A configuration text may hold `${NAME}` and `${NAME:default}`. They are replaced in one pass
from left to right: what is put in is never looked at again.
-/
namespace TokenKeeper

/-- The variables of the process, as bytes. -/
abbrev Environment := List (String × Bytes)

/-- A variable's value; one that is not UTF-8 counts as unset. -/
def Environment.get? (env : Environment) (name : String) : Option String :=
  (env.lookup name).bind Text.Utf8.decode?

/-- A placeholder at the start of a text, and the number of its characters. -/
structure Placeholder where
  name : List Char
  fallback : Option (List Char)
  width : Nat
deriving DecidableEq, Repr

namespace Placeholder

/-- The placeholder a text begins with. A name is not empty and made of word characters; a
default runs to the next closing brace. -/
def atStart? : List Char → Option Placeholder
  | '$' :: '{' :: cs =>
    let name := cs.takeWhile Text.isWord
    if name.isEmpty then none
    else
      match cs.dropWhile Text.isWord with
      | '}' :: _ => some ⟨name, none, name.length + 3⟩
      | ':' :: rest =>
        let fallback := rest.takeWhile (· != '}')
        match rest.dropWhile (· != '}') with
        | '}' :: _ => some ⟨name, some fallback, name.length + fallback.length + 4⟩
        | _ => none
      | _ => none
  | _ => none

/-- What a placeholder stands for: the variable's value, else its default, else nothing. -/
def value (env : Environment) (p : Placeholder) : List Char :=
  match env.get? (String.ofList p.name) with
  | some v => v.toList
  | none => p.fallback.getD []

/-- Replaces all placeholders after the first `skip` characters, which are dropped: they are the
rest of a placeholder that has been replaced. -/
def expandFrom (env : Environment) : Nat → List Char → List Char
  | _, [] => []
  | skip + 1, _ :: cs => expandFrom env skip cs
  | 0, c :: cs =>
    match atStart? (c :: cs) with
    | some p => p.value env ++ expandFrom env (p.width - 1) cs
    | none => c :: expandFrom env 0 cs

def names (text : List Char) : List String :=
  match text with
  | [] => []
  | c :: cs => ((atStart? (c :: cs)).map fun p => String.ofList p.name).toList ++ names cs

end Placeholder

def expand (env : Environment) (text : String) : String :=
  String.ofList (Placeholder.expandFrom env 0 text.toList)

end TokenKeeper
