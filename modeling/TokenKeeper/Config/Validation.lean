import TokenKeeper.Config.Basic
import TokenKeeper.Text.Blank
/-!
# Valid configurations

A configuration is checked as a whole: every rule it breaks is one issue, and the issues come
in the order of the sections. Each section's issues depend on that section alone.
-/
namespace TokenKeeper

/-- A rule that a configuration breaks. -/
inductive Issue where
  | unknownLevel (level : String)
  | zeroTimeout
  | emptyUrl
  | urlScheme (url : String)
  | missingForPassword (field : String)
  | missingForProject (field : String)
  | certificateWithoutKey
  | keyWithoutCertificate
deriving DecidableEq, Repr

def Issue.message : Issue → String
  | unknownLevel level =>
    "settings.logging.level '" ++ level
      ++ "' invalid; allowed: [\"trace\", \"debug\", \"info\", \"warn\", \"error\"]"
  | zeroTimeout => "settings.http.timeout_ms must be greater than 0"
  | emptyUrl => "keystone.auth_url must not be empty"
  | urlScheme url => "keystone.auth_url '" ++ url ++ "' must start with http:// or https://"
  | missingForPassword field =>
    "keystone." ++ field
      ++ " is required for v2 password authentication (or set keystone.admin_token)"
  | missingForProject field => "keystone." ++ field ++ " is required for v3 authentication"
  | certificateWithoutKey => "tls.cert_file is set but tls.key_file is missing"
  | keyWithoutCertificate => "tls.key_file is set but tls.cert_file is missing"

def logLevels : List String := ["trace", "debug", "info", "warn", "error"]

/-- Whether a level is one of `logLevels` in letters of either case. The names are ASCII, and no
other character has a lower case that occurs in them. -/
def isLogLevel (level : String) : Bool :=
  logLevels.contains (String.ofList (level.toList.map Char.toLower))

/-- The one issue `i`, unless the rule holds. -/
def Issue.unless (holds : Bool) (i : Issue) : List Issue :=
  if holds then [] else [i]

/-- The level must be known and a time limit not zero. -/
def Settings.issues (s : Settings) : List Issue :=
  (match s.logging with
    | some l => Issue.unless (isLogLevel l.level) (.unknownLevel l.level)
    | none => [])
  ++ (match s.http.bind HttpSettings.timeoutMs with
    | some ms => Issue.unless (ms != 0) .zeroTimeout
    | none => [])

/-- Apart from blanks around it, the url must begin with a scheme of the web. -/
def Credentials.urlIssues (c : Credentials) : List Issue :=
  let url := Text.trimBlank c.authUrl
  if url.isEmpty then [.emptyUrl]
  else Issue.unless (url.startsWith "http://" || url.startsWith "https://") (.urlScheme url)

/-- What the chosen way to authenticate cannot do without must be there. -/
def Credentials.inputIssues (c : Credentials) : List Issue :=
  match c.protocol with
  | .v2 =>
    if c.effectiveAdminToken.isSome then []
    else Issue.unless (!c.username.isEmpty) (.missingForPassword "username")
      ++ Issue.unless (!c.password.isEmpty) (.missingForPassword "password")
  | .v3 =>
    Issue.unless (!c.username.isEmpty) (.missingForProject "username")
      ++ Issue.unless (!c.password.isEmpty) (.missingForProject "password")
      ++ Issue.unless (!c.projectName.isEmpty) (.missingForProject "project_name")

def Credentials.issues (c : Credentials) : List Issue :=
  c.urlIssues ++ c.inputIssues

/-- A certificate and a key come together; without verification neither is used. -/
def TlsSection.issues (t : TlsSection) : List Issue :=
  if t.files.insecure then []
  else
    match t.files.certFile, t.files.keyFile with
    | some _, none => [.certificateWithoutKey]
    | none, some _ => [.keyWithoutCertificate]
    | _, _ => []

/-- All issues of a configuration, section by section. -/
def ServiceConfig.issues (c : ServiceConfig) : List Issue :=
  c.settings.issues ++ c.identity.issues ++ (c.tls.map TlsSection.issues).getD []

end TokenKeeper
