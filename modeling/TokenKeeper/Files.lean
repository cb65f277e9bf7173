import TokenKeeper.Text.Utf8
/-!
# Files

The files a program may read: those in the directory it runs in by relative paths, any others by
absolute ones. A path goes step by step from directory to directory. What lies above the directory
it runs in is not known by relative paths.
-/
namespace TokenKeeper

abbrev Files := List (String × Bytes)

inductive FileFault where
  | missing
  | notDirectory
  | directory
  | longName
  | nulInName
  | notText
deriving DecidableEq, Repr

def FileFault.message : FileFault → String
  | missing => "No such file or directory (os error 2)"
  | notDirectory => "Not a directory (os error 20)"
  | directory => "Is a directory (os error 21)"
  | longName => "File name too long (os error 36)"
  | nulInName => "file name contained an unexpected NUL byte"
  | notText => "stream did not contain valid UTF-8"

namespace Files

def steps (path : String) : List (List Char) := path.toList.splitOn '/'

/-- What a path has led to: a directory inside, a file, or a directory further up. -/
inductive Spot where
  | inside (directory : List (List Char))
  | file (content : Bytes)
  | outside
deriving DecidableEq

/-- The directory in which absolute paths begin. -/
def root : List (List Char) := [[]]

def at? (fs : Files) (steps : List (List Char)) : Option Bytes :=
  (fs.find? fun f => Files.steps f.1 == steps).map Prod.snd

/-- Whether files lie in or under that directory. -/
def hasDirectory (fs : Files) (directory : List (List Char)) : Bool :=
  fs.any fun f => (directory ++ [[]]).length ≤ (Files.steps f.1).length
    && directory.isPrefixOf (Files.steps f.1)

def step (fs : Files) (s : Spot) (name : List Char) : Except FileFault Spot :=
  match s with
  | .file _ => .error .notDirectory
  | .outside =>
    if name.isEmpty || name == ['.'] || name == ['.', '.'] then .ok .outside
    else .error .missing
  | .inside directory =>
    if name.isEmpty || name == ['.'] then .ok s
    else if name == ['.', '.'] then
      .ok (if directory.isEmpty then .outside
        else if directory == root then s
        else .inside directory.dropLast)
    else if 255 < (Text.Utf8.encode (String.ofList name)).length then .error .longName
    else
      match fs.at? (directory ++ [name]) with
      | some content => .ok (.file content)
      | none =>
        if fs.hasDirectory (directory ++ [name]) then .ok (.inside (directory ++ [name]))
        else .error .missing

def read (fs : Files) (path : String) : Except FileFault Bytes :=
  if path.isEmpty then .error .missing
  else if path.toList.contains '\x00' then .error .nulInName
  else
    let start := Spot.inside (if path.startsWith "/" then root else [])
    match (steps path).foldlM (step fs) start with
    | .ok (.file content) => .ok content
    | .ok _ => .error .directory
    | .error f => .error f

def readText (fs : Files) (path : String) : Except FileFault String :=
  (fs.read path).bind fun content => (Text.Utf8.decode? content).elim (.error .notText) .ok

end Files

end TokenKeeper
