import TokenKeeper.Command.Run
/-!
# The program

Hands the command its arguments, the variables and files it may ask for, and prints what it leaves.
The program has no network of its own: no connection comes about.
-/
namespace TokenKeeper.Main
open Command

def variableOf (name : String) : IO Environment := do
  match ← IO.getEnv name with
  | some value => return [(name, Text.Utf8.encode value)]
  | none => return []

def file? (path : String) : IO Files := do
  try
    let content ← IO.FS.readBinFile path
    return [(path, content.toList)]
  catch _ => return []

/-- The variables that the command and a text's placeholders ask for. -/
def environment (text : String) : IO Environment := do
  let names := ["CONFIG", "LOG_LEVEL"] ++ Placeholder.names text.toList
  return (← names.mapM variableOf).flatten

/-- The files that a configuration asks for. -/
def material (config : ServiceConfig) : IO Files := do
  match config.tls with
  | none => return []
  | some tls =>
    let paths := [tls.files.caFile, tls.files.certFile, tls.files.keyFile].filterMap id
    return (← paths.mapM file?).flatten

def jsonLine (r : LogRecord) : String :=
  let value : LogValue → Json
    | .text s => .string s
    | .number n => .number (toString n)
  (Json.object ([("level", .string r.level.label), ("message", .string r.message)]
    ++ (r.fields.map fun f => (f.1, value f.2)) ++ [("target", .string r.target)])).render

def plainLine (r : LogRecord) : String :=
  let value : LogValue → String
    | .text s => s
    | .number n => toString n
  r.level.label ++ " " ++ r.target ++ ": " ++ r.message
    ++ String.join (r.fields.map fun f => " " ++ f.1 ++ "=" ++ value f.2)

/-- What the command begins with, as far as its arguments and the configuration ask for it. -/
def invocation (arguments : List String) : IO Invocation := do
  let env ← environment ""
  let start : Invocation := ⟨arguments, env, ⟨[], ⟨0, 0⟩⟩, ⟨false, [], [], []⟩⟩
  match Arguments.parse arguments env with
  | .error _ => return start
  | .ok a =>
    let files ← file? a.config
    let text := (files.readText a.config).toOption.getD ""
    let env ← environment text
    let files ← match ServiceConfig.load files env a.config with
      | .ok config => pure (files ++ (← material config))
      | .error _ => pure files
    return { start with env, around := ⟨files, ⟨0, 0⟩⟩ }

end TokenKeeper.Main

/-- Runs the command once. A client that begins without a token never asks for the time of day. -/
def main (arguments : List String) : IO UInt32 := do
  let r := TokenKeeper.Command.run (← TokenKeeper.Main.invocation arguments)
  for record in r.records do
    IO.println (match r.format with
      | .json => TokenKeeper.Main.jsonLine record
      | .compact => TokenKeeper.Main.plainLine record)
  for line in r.output do
    IO.println line
  if r.error.isSome then
    IO.eprintln r.errorText
  return r.exit.toUInt32
