import TokenKeeper.Client.Run
import TokenKeeper.Command.Arguments
import TokenKeeper.Config.Load
/-!
# The command

One run of the command: it loads the configuration, makes the client that it describes, obtains one
token, sends a request with it if a url is given, and tells what it did. It ends at the first thing
that fails.
-/
namespace TokenKeeper.Command

/-- What a run of the command begins with. -/
structure Invocation where
  arguments : List String
  env : Environment
  around : Surroundings
  peer : Http.Peer

/-- What a run of the command leaves: its exit code, an error, the log records that are written and
in which format, the lines of output, and the requests that reached the peer. -/
structure Report where
  exit : Nat
  error : Option String
  format : LogFormat
  records : List LogRecord
  output : List String
  received : List Http.Request

/-- The error as the command prints it: one about the command line begins in a small letter. -/
def Report.errorText (r : Report) : String :=
  match r.error with
  | some e => (if r.exit == 2 then "error: " else "Error: ") ++ e
  | none => ""

def tokenRecord (kept : CachedToken) : LogRecord :=
  ⟨.info, logTarget "", "token acquired", [
    ("protocol", .text ("Some(" ++ kept.protocol.display ++ ")")),
    ("issued_at", .text kept.token.issuedAt), ("expires_at", .text kept.token.expiresAt)]⟩

def probeRecord (url : Url) (status : Nat) : LogRecord :=
  ⟨.info, logTarget "", "probe finished",
    [("url", .text url.text), ("status", .text (Http.statusLine status))]⟩

/-- Sends a request with the token to a url. It goes its own way, without the TLS policy and the
time limit of the identity service. -/
def probe (url : Url) (headers : Http.Headers) (w : World) : Except String Unit × World :=
  let failed : Except String Unit := .error ("probe request to " ++ url.text ++ " failed")
  if !url.isWeb then (failed, w)
  else
    match w.send (.plain true none) ⟨.get, url, headers, none⟩ with
    | (.ok r, w) => (.ok (), w.log [probeRecord url r.status])
    | (.error _, w) => (failed, w)

/-- Obtains a token, by itself or for the request to a url. -/
def obtain (s : Session) (now : Time.Instant) (url : Option Url) : Except String Unit × Session :=
  match url with
  | none =>
    let (result, client, world) := s.client.authenticate s.world
    (result.mapError AuthError.message, { s with client, world })
  | some url =>
    match s.addAuthentication now [] with
    | (.error e, client, world) => (.error e.message, { s with client, world })
    | (.ok headers, client, world) =>
      let (result, world) := probe url headers world
      (result, { s with client, world })

def kindOf (config : ServiceConfig) : ClientKind :=
  if config.settings.keepalive then .keepalive else .onDemand

/-- Whether a record is heavy enough for the level, which may be written in capitals. -/
def passes (level : String) (r : LogRecord) : Bool :=
  ((LogLevel.ofName? true level).getD .info).weight ≤ r.level.weight

/-- The rest of a run, with a configuration. -/
def runWith (i : Invocation) (a : Arguments) (config : ServiceConfig) : Report :=
  let settings := config.runLogSettings a.logLevel
  let report (error : Option String) (w : World) (output : List String) : Report :=
    ⟨if error.isSome then 1 else 0, error, settings.format,
      w.records.filter (passes settings.level), output, w.received⟩
  let world := (World.start i.peer).log (Client.ofConfigRecords i.around.files config)
  match Client.ofConfig i.around.files config with
  | .error e => report (some e.message) world []
  | .ok client =>
    match obtain ⟨kindOf config, client, world⟩ i.around.now a.probe with
    | (.error e, s) => report (some e) s.world []
    | (.ok _, s) =>
      let world := s.world.log (s.client.cache.map tokenRecord).toList
      report none world (if a.printMetrics then world.metrics.lines else [])

def configMessage (e : ConfigError) : String :=
  "Invalid config format" ++ (e.message?.map (": " ++ ·)).getD ""

def run (i : Invocation) : Report :=
  let early (exit : Nat) (error : Option String) (output : List String) : Report :=
    ⟨exit, error, LogSettings.default.format, [], output, []⟩
  match Arguments.parse i.arguments i.env with
  | .error .help => early 0 none ["Usage: keystone-auth [OPTIONS]"]
  | .error .version => early 0 none ["keystone-auth"]
  | .error r => early 2 (some r.message) []
  | .ok a =>
    match ServiceConfig.load i.around.files i.env a.config with
    | .error e => early 1 (some (configMessage e)) []
    | .ok config => runWith i a config

end TokenKeeper.Command
