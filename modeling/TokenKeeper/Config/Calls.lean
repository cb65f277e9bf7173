import TokenKeeper.Config.Load
import TokenKeeper.Metrics.Basic
/-!
# Calls for a configuration

The ways to a configuration with the metrics they share. A text that is no configuration is counted
where it is read, and a configuration that is not valid where it is checked, once for all its issues; a
file that cannot be read is not counted.
-/
namespace TokenKeeper

namespace ServiceConfig

def validate (c : ServiceConfig) (m : Metrics) : Except ConfigError Unit × Metrics :=
  match c.issues with
  | [] => (.ok (), m)
  | issues => (.error (.invalid issues), m.countConfigErrors 1)

/-- The valid configuration a text holds. -/
def parseCounting (text : String) (m : Metrics) : Except ConfigError ServiceConfig × Metrics :=
  match ofYaml text with
  | .error u => (.error (.unread u), m.countConfigErrors 1)
  | .ok c =>
    match c.withLogging.validate m with
    | (.ok (), m) => (.ok c.withLogging, m)
    | (.error e, m) => (.error e, m)

def loadCounting (files : Files) (env : Environment) (path : String) (m : Metrics) :
    Except ConfigError ServiceConfig × Metrics :=
  match files.readText path with
  | .ok text => parseCounting (expand env text) m
  | .error f => (.error (.unreadable path f), m)

end ServiceConfig

inductive ConfigCall where
  | load (files : Files) (env : Environment) (path : String)
  | parse (text : String)
  | validate (c : ServiceConfig)

namespace ConfigCall

/-- Why the call fails, if it does, and the metrics after it. -/
def perform (m : Metrics) : ConfigCall → Option ConfigError × Metrics
  | load files env path => failure (ServiceConfig.loadCounting files env path m)
  | parse text => failure (ServiceConfig.parseCounting text m)
  | validate c => failure (c.validate m)
where
  /-- What is left of an outcome without the configuration. -/
  failure {α : Type} : Except ConfigError α × Metrics → Option ConfigError × Metrics
    | (.ok _, m) => (none, m)
    | (.error e, m) => (some e, m)

def run (m : Metrics) : List ConfigCall → List (Option ConfigError) × Metrics
  | [] => ([], m)
  | call :: calls =>
    let (e, m) := call.perform m
    let (es, m) := run m calls
    (e :: es, m)

end ConfigCall

end TokenKeeper
