import TokenKeeper.Config.Basic
import TokenKeeper.Metrics.Counts
/-!
# Metrics

What is counted while tokens are obtained: exchanges by protocol and method, how many took their
time, failures by protocol and reason, tokens dropped at half their life, the end of the newest
token's life, and configuration errors.
-/
namespace TokenKeeper

structure Metrics where
  requests : Counts (Protocol × String)
  durations : Counts Protocol
  failures : Counts (Protocol × String)
  refreshes : Nat
  expiry : Int
  configErrors : Nat
deriving DecidableEq, Repr

namespace Metrics

def zero : Metrics := ⟨[], [], [], 0, 0, 0⟩

/-- An exchange begins. -/
def countRequest (m : Metrics) (p : Protocol) (method : String) : Metrics :=
  { m with requests := m.requests.bump (p, method) }

/-- An exchange has ended, one way or the other. -/
def countDuration (m : Metrics) (p : Protocol) : Metrics :=
  { m with durations := m.durations.bump p }

def countFailure (m : Metrics) (p : Protocol) (reason : String) : Metrics :=
  { m with failures := m.failures.bump (p, reason) }

/-- A token has been dropped at half its life. -/
def countRefresh (m : Metrics) : Metrics := { m with refreshes := m.refreshes + 1 }

/-- A token has been obtained that lives until that second. -/
def setExpiry (m : Metrics) (second : Int) : Metrics := { m with expiry := second }

def countConfigErrors (m : Metrics) (n : Nat) : Metrics :=
  { m with configErrors := m.configErrors + n }

end Metrics

end TokenKeeper
