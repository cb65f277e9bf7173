import TokenKeeper.Config.Placeholder
import TokenKeeper.Log.Level
import TokenKeeper.Url.Parse
/-!
# The command line

The options of the command, from its arguments and, for those not given there, from the
environment. A value that stands apart from its option is looked at only when the next option or
the end has come; an argument that is none of the command's own is refused at once.
-/
namespace TokenKeeper.Command

inductive ValueOption where
  | config
  | logLevel
  | probe
deriving DecidableEq, Repr

def ValueOption.display : ValueOption → String
  | config => "--config <CONFIG>"
  | logLevel => "--log-level <LOG_LEVEL>"
  | probe => "--probe <PROBE>"

/-- Why the command does not run as asked. -/
inductive Refusal where
  | unexpected (argument : String)
  | missingValue (option : String)
  | invalidValue (value option : String)
  | unreadableValue (value option reason : String)
  | repeated (option : String)
  | surplusValue (value option : String)
  | notText
  | help
  | version
deriving DecidableEq, Repr

def missingText (option : String) : String :=
  "a value is required for '" ++ option ++ "' but none was supplied"

def Refusal.message : Refusal → String
  | unexpected a => "unexpected argument '" ++ a ++ "' found"
  | missingValue o => missingText o
  | invalidValue v o =>
    if v.isEmpty then missingText o
    else "invalid value '" ++ v ++ "' for '" ++ o ++ "'"
  | unreadableValue v o reason => "invalid value '" ++ v ++ "' for '" ++ o ++ "': " ++ reason
  | repeated o => "the argument '" ++ o ++ "' cannot be used multiple times"
  | surplusValue v o =>
    "unexpected value '" ++ v ++ "' for '" ++ o ++ "' found; no more were expected"
  | notText => "invalid UTF-8 was detected in one or more arguments"
  | help => "help"
  | version => "version"

/-- The arguments read so far. `pending` is an option that has been named and whose value, if it
has come, has not been looked at. -/
structure Draft where
  config : Option String
  logLevel : Option LogLevel
  probe : Option Url
  printMetrics : Bool
  pending : Option (ValueOption × Option String)
deriving DecidableEq, Repr

namespace Draft

def empty : Draft := ⟨none, none, none, false, none⟩

def has (d : Draft) : ValueOption → Bool
  | .config => d.config.isSome
  | .logLevel => d.logLevel.isSome
  | .probe => d.probe.isSome

def give (d : Draft) (o : ValueOption) (v : String) : Except Refusal Draft :=
  if d.has o then .error (.repeated o.display)
  else
    match o with
    | .config => .ok { d with config := some v }
    | .logLevel =>
      match LogLevel.ofName? false v with
      | some l => .ok { d with logLevel := some l }
      | none => .error (.invalidValue v o.display)
    | .probe =>
      match Url.parse v with
      | .ok u => .ok { d with probe := some u }
      | .error f => .error (.unreadableValue v o.display f.message)

/-- Looks at the value of the option that is pending. -/
def settle (d : Draft) : Except Refusal Draft :=
  match d.pending with
  | none => .ok d
  | some (o, none) => .error (.missingValue o.display)
  | some (o, some v) => { d with pending := none }.give o v

/-- An option with a value that may stand right behind it. -/
def take (d : Draft) (o : ValueOption) (attached : Option String) : Except Refusal Draft :=
  d.settle.bind fun d =>
    match attached with
    | some v => d.give o v
    | none => .ok { d with pending := some (o, none) }

def metricsFlag : String := "--print-metrics"

def takeMetrics (d : Draft) : Except Refusal Draft :=
  d.settle.bind fun d =>
    if d.printMetrics then .error (.repeated metricsFlag) else .ok { d with printMetrics := true }

/-- Something other than an option is asked for. -/
def stop (d : Draft) (r : Refusal) : Except Refusal Draft := d.settle.bind fun _ => .error r

/-- An argument that begins with two dashes. -/
def takeLong (d : Draft) (argument : String) : Except Refusal Draft :=
  let cs := argument.toList
  let name := String.ofList (cs.takeWhile (· != '='))
  let attached := (cs.dropWhile (· != '=')).tail?.map String.ofList
  match name with
  | "--config" => d.take .config attached
  | "--log-level" => d.take .logLevel attached
  | "--probe" => d.take .probe attached
  | _ =>
    let flag (go : Except Refusal Draft) : Except Refusal Draft :=
      match attached with
      | none => go
      | some v => .error (.surplusValue v name)
    if name == metricsFlag then flag d.takeMetrics
    else if name == "--help" then flag (d.stop .help)
    else if name == "--version" then flag (d.stop .version)
    else .error (.unexpected name)

/-- An argument that begins with one dash; `rest` is what comes after it. -/
def takeShort (d : Draft) (rest : List Char) : Except Refusal Draft :=
  match rest with
  | 'c' :: '=' :: v => d.take .config (some (String.ofList v))
  | 'c' :: v => d.take .config (if v.isEmpty then none else some (String.ofList v))
  | 'h' :: _ => d.stop .help
  | 'V' :: _ => d.stop .version
  | c :: _ => .error (.unexpected (String.ofList ['-', c]))
  | [] => .error (.unexpected "-")

/-- An argument that is no option: the value of the one that waits for it. -/
def takeValue (d : Draft) (argument : String) : Except Refusal Draft :=
  match d.pending with
  | some (o, none) => .ok { d with pending := some (o, some argument) }
  | _ => .error (.unexpected argument)

/-- Reads arguments. Behind two dashes alone there are no options, and no argument is allowed. -/
def read : List String → Draft → Except Refusal Draft
  | [], d => d.settle
  | a :: rest, d =>
    match a.toList with
    | ['-', '-'] =>
      match rest with
      | [] => d.settle
      | b :: _ => .error (.unexpected b)
    | '-' :: '-' :: _ => (d.takeLong a).bind (read rest)
    | '-' :: c :: cs => (d.takeShort (c :: cs)).bind (read rest)
    | _ => (d.takeValue a).bind (read rest)

end Draft

structure Arguments where
  config : String
  logLevel : Option LogLevel
  probe : Option Url
  printMetrics : Bool
deriving DecidableEq, Repr

namespace Arguments

/-- The configuration that is read if none is named. -/
def defaultConfig : String := "keystone-auth.yaml"

/-- The path of the configuration: as given, else from the environment, else the default. -/
def configPath (env : Environment) (given : Option String) : Except Refusal String :=
  match given, env.lookup "CONFIG" with
  | some path, _ => .ok path
  | none, some bytes => (Text.Utf8.decode? bytes).elim (.error .notText) .ok
  | none, none => .ok defaultConfig

/-- The log level: as given, else from the environment. -/
def level (env : Environment) (given : Option LogLevel) : Except Refusal (Option LogLevel) :=
  match given, env.lookup "LOG_LEVEL" with
  | some l, _ => .ok (some l)
  | none, some bytes =>
    let name := Text.Utf8.decodeLossy bytes
    match LogLevel.ofName? false name with
    | some l => .ok (some l)
    | none => .error (.invalidValue name ValueOption.logLevel.display)
  | none, none => .ok none

def parse (arguments : List String) (env : Environment) : Except Refusal Arguments := do
  let d ← Draft.read arguments .empty
  let config ← configPath env d.config
  let logLevel ← level env d.logLevel
  return ⟨config, logLevel, d.probe, d.printMetrics⟩

end Arguments

end TokenKeeper.Command
