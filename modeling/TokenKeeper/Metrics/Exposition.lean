import TokenKeeper.Metrics.Basic
/-!
# The metrics as text

Every family of numbers with a line that says what it is, a line with its kind, and a line for each
series. Families come by name and series by the values of their labels. Measured times themselves
are left out; how many there were is not.
-/
namespace TokenKeeper.Metrics

/-- One line of numbers: the labels with their values, and the number. -/
structure Series where
  labels : List (String × String)
  value : Int

structure Family where
  name : String
  help : String
  kind : String
  /-- What follows the name on the lines of numbers. -/
  tail : String
  series : List Series

namespace Series

/-- The labels' values as a row of numbers in which each value ends in the smallest one. -/
def key (s : Series) : List Nat :=
  s.labels.flatMap fun l => l.2.toList.map (fun c => c.toNat + 1) ++ [0]

/-- Whether the labels' values do not come after those of another series. -/
def before (a b : Series) : Bool := !b.key.lex a.key Nat.blt

/-- The labels in braces; none without labels. -/
def labelText (s : Series) : String :=
  if s.labels.isEmpty then ""
  else
    "\x7b" ++ ",".intercalate (s.labels.map fun l => l.1 ++ "=\"" ++ l.2 ++ "\"") ++ "\x7d"

end Series

namespace Family

def space : String := "keystoneauth_"

/-- The lines of a family; none if it has no series. -/
def lines (f : Family) : List String :=
  let name := space ++ f.name
  if f.series.isEmpty then []
  else
    ["# HELP " ++ name ++ " " ++ f.help, "# TYPE " ++ name ++ " " ++ f.kind]
      ++ (f.series.mergeSort Series.before).map fun s =>
        name ++ f.tail ++ s.labelText ++ " " ++ toString s.value

end Family

def families (m : Metrics) : List Family := [
  ⟨"auth_duration_seconds", "Authentication exchange duration seconds", "histogram", "_count",
    m.durations.map fun (p, n) => ⟨[("protocol", p.name)], n⟩⟩,
  ⟨"auth_failures_total", "Authentication failures by reason", "counter", "",
    m.failures.map fun ((p, reason), n) => ⟨[("protocol", p.name), ("reason", reason)], n⟩⟩,
  ⟨"auth_requests_total", "Authentication exchanges by protocol and method", "counter", "",
    m.requests.map fun ((p, method), n) => ⟨[("method", method), ("protocol", p.name)], n⟩⟩,
  ⟨"config_errors_total", "Config parse and validation failures", "counter", "",
    [⟨[], m.configErrors⟩]⟩,
  ⟨"token_expiry_unix_seconds", "Expiry of the most recently issued token", "gauge", "",
    [⟨[], m.expiry⟩]⟩,
  ⟨"token_refreshes_total", "Cached tokens discarded at half-life", "counter", "",
    [⟨[], m.refreshes⟩]⟩]

def lines (m : Metrics) : List String := m.families.flatMap Family.lines

end TokenKeeper.Metrics
