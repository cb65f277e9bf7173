/-!
# The configuration

What the service is configured with: settings of the program itself, the credentials it
authenticates with, and how the identity service is reached over TLS.
-/
namespace TokenKeeper

inductive Protocol where
  | v2
  | v3
deriving DecidableEq, Repr

namespace Protocol

/-- The name used in configurations, metrics and log records. -/
def name : Protocol → String
  | v2 => "v2"
  | v3 => "v3"

/-- The name used where a record shows a value's structure. -/
def display : Protocol → String
  | v2 => "V2"
  | v3 => "V3"

end Protocol

inductive LogFormat where
  | json
  | compact
deriving DecidableEq, Repr

def LogFormat.name : LogFormat → String
  | json => "json"
  | compact => "compact"

structure LogSettings where
  level : String
  format : LogFormat
deriving DecidableEq, Repr

def LogSettings.default : LogSettings := ⟨"info", .compact⟩

/-- Requests without a time limit wait for as long as it takes. -/
structure HttpSettings where
  timeoutMs : Option Nat
deriving DecidableEq, Repr

/-- Settings of the program; with `keepalive` a token is renewed at half its life. -/
structure Settings where
  logging : Option LogSettings
  http : Option HttpSettings
  keepalive : Bool
deriving DecidableEq, Repr

def Settings.default : Settings := ⟨none, none, true⟩

/-- Whom the service authenticates as, and where. A tenant belongs to v2; a project and the two
domains belong to v3. -/
structure Credentials where
  authUrl : String
  protocol : Protocol
  tenantName : String
  projectName : String
  username : String
  password : String
  adminToken : Option String
  domainName : String
  projectDomainName : String
deriving DecidableEq, Repr

/-- The admin token that counts: an empty one is none. -/
def Credentials.effectiveAdminToken (c : Credentials) : Option String :=
  c.adminToken.filter fun t => !t.isEmpty

/-- The files and the switch that decide how a peer is verified. -/
structure TlsFiles where
  caFile : Option String
  keyFile : Option String
  certFile : Option String
  insecure : Bool
deriving DecidableEq, Repr

namespace TlsFiles

/-- A path that is empty is not set. -/
def path? (s : String) : Option String :=
  if s.isEmpty then none else some s

/-- The files named by texts of which an empty one names none. -/
def ofPaths (caFile keyFile certFile : String) (insecure : Bool) : TlsFiles :=
  ⟨path? caFile, path? keyFile, path? certFile, insecure⟩

def unverified : TlsFiles := ⟨none, none, none, true⟩

end TlsFiles

/-- The TLS section. With `forceInsecureV3` every v3 exchange switches verification off. -/
structure TlsSection where
  files : TlsFiles
  forceInsecureV3 : Bool
deriving DecidableEq, Repr

structure ServiceConfig where
  settings : Settings
  identity : Credentials
  tls : Option TlsSection
deriving DecidableEq, Repr

namespace ServiceConfig

/-- Whether v3 exchanges run unverified: they do unless the TLS section says otherwise. -/
def forceInsecureV3 (c : ServiceConfig) : Bool :=
  (c.tls.map TlsSection.forceInsecureV3).getD true

def timeoutMs (c : ServiceConfig) : Option Nat :=
  c.settings.http.bind HttpSettings.timeoutMs

def logSettings (c : ServiceConfig) : LogSettings :=
  c.settings.logging.getD .default

/-- The configuration with its log settings spelled out. -/
def withLogging (c : ServiceConfig) : ServiceConfig :=
  { c with settings := { c.settings with logging := some c.logSettings } }

end ServiceConfig

end TokenKeeper
