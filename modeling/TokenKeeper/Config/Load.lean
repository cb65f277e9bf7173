import TokenKeeper.Config.Decode
import TokenKeeper.Config.Placeholder
import TokenKeeper.Config.Validation
import TokenKeeper.Files
/-!
# Loading a configuration

From a file to a configuration that is valid: placeholders are replaced in the text, the text is
read, the log settings are spelled out, and the whole is checked.
-/
namespace TokenKeeper

inductive ConfigError where
  | unreadable (path : String) (f : FileFault)
  | unread (u : Yaml.Unread)
  | invalid (issues : List Issue)

namespace ConfigError

/-- The error in words; none where the text is not even a document. -/
def message? : ConfigError → Option String
  | unreadable path f => some ("failed to read config file '" ++ path ++ "': " ++ f.message)
  | unread u => u.message?
  | invalid issues =>
    some ("config is not valid: " ++ "; ".intercalate (issues.map Issue.message))

end ConfigError

namespace ServiceConfig

def checked (c : ServiceConfig) : Except ConfigError ServiceConfig :=
  match c.issues with
  | [] => .ok c
  | issues => .error (.invalid issues)

/-- The valid configuration a text holds. -/
def parse (text : String) : Except ConfigError ServiceConfig :=
  match ofYaml text with
  | .ok c => c.withLogging.checked
  | .error u => .error (.unread u)

def load (files : Files) (env : Environment) (path : String) : Except ConfigError ServiceConfig :=
  match files.readText path with
  | .ok text => parse (expand env text)
  | .error f => .error (.unreadable path f)

end ServiceConfig

end TokenKeeper
