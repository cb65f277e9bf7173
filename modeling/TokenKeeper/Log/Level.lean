import TokenKeeper.Config.Basic
/-!
# Log levels

The levels of log records, from the most talkative to the least, and the choice between a
configured level and one given for a single run.
-/
namespace TokenKeeper

inductive LogLevel where
  | trace
  | debug
  | info
  | warn
  | error
deriving DecidableEq, Repr

namespace LogLevel

/-- All levels, the most talkative first. -/
def all : List LogLevel := [trace, debug, info, warn, error]

def name : LogLevel → String
  | trace => "trace"
  | debug => "debug"
  | info => "info"
  | warn => "warn"
  | error => "error"

/-- The name a log record shows. -/
def label (l : LogLevel) : String :=
  String.ofList (l.name.toList.map Char.toUpper)

/-- The place in `all`: a record is written if its weight is not below the threshold's. -/
def weight : LogLevel → Nat
  | trace => 0
  | debug => 1
  | info => 2
  | warn => 3
  | error => 4

/-- Two texts that differ at most in the case of ASCII letters. -/
def sameLetters (a b : String) : Bool :=
  a.toList.map Char.toLower == b.toList.map Char.toLower

def ofName? (ignoreCase : Bool) (s : String) : Option LogLevel :=
  all.find? fun l => if ignoreCase then sameLetters l.name s else l.name == s

end LogLevel

/-- The log settings of a run: a level given for the run wins over the configured one. -/
def ServiceConfig.runLogSettings (c : ServiceConfig) (level : Option LogLevel) : LogSettings :=
  match level with
  | some l => { c.logSettings with level := l.name }
  | none => c.logSettings

end TokenKeeper
