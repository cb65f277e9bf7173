import TokenKeeper.Config.Basic
import TokenKeeper.Yaml.Read
/-!
# Configurations in YAML

How the sections of a configuration are written. A field that may be left out keeps the value it
has in a configuration without any.
-/
namespace TokenKeeper
open Yaml

def Protocol.choices : List (String × Protocol) :=
  [Protocol.v2, Protocol.v3].map fun p => (p.name, p)

def LogFormat.choices : List (String × LogFormat) :=
  [LogFormat.json, LogFormat.compact].map fun f => (f.name, f)

namespace LogSettings

def fields : List (RecordField LogSettings) := [
  .of "level" true Place.readText fun s v => { s with level := v },
  .of "format" true (·.readChoice LogFormat.choices) fun s v => { s with format := v }]

def read (p : Place) : Node → Read LogSettings :=
  p.readRecord "LoggingConfig" fields Place.skipOther .default

end LogSettings

namespace HttpSettings

def fields : List (RecordField HttpSettings) := [
  .of "timeout_ms" false (fun p => p.readOption p.readCount) fun s v => { s with timeoutMs := v }]

def read (p : Place) : Node → Read HttpSettings :=
  p.readRecord "HttpConfig" fields Place.skipOther ⟨none⟩

end HttpSettings

namespace Settings

def fields : List (RecordField Settings) := [
  .of "logging" false (fun p => p.readOption (LogSettings.read p))
    fun s v => { s with logging := v },
  .of "http" false (fun p => p.readOption (HttpSettings.read p)) fun s v => { s with http := v },
  .of "keepalive" false Place.readFlag fun s v => { s with keepalive := v }]

def read (p : Place) : Node → Read Settings :=
  p.readRecord "SettingsConfig" fields Place.skipOther .default

end Settings

namespace Credentials

def empty : Credentials := ⟨"", .v2, "", "", "", "", none, "", ""⟩

def fields : List (RecordField Credentials) := [
  .of "auth_url" true Place.readText fun c v => { c with authUrl := v },
  .of "protocol" false (·.readChoice Protocol.choices) fun c v => { c with protocol := v },
  .of "tenant_name" false Place.readText fun c v => { c with tenantName := v },
  .of "project_name" false Place.readText fun c v => { c with projectName := v },
  .of "username" false Place.readText fun c v => { c with username := v },
  .of "password" false Place.readText fun c v => { c with password := v },
  .of "admin_token" false (fun p => p.readOption p.readText) fun c v => { c with adminToken := v },
  .of "domain_name" false Place.readText fun c v => { c with domainName := v },
  .of "project_domain_name" false Place.readText fun c v => { c with projectDomainName := v }]

def read (p : Place) : Node → Read Credentials :=
  p.readRecord "Credentials" fields Place.skipOther empty

end Credentials

namespace TlsSection

/-- A section being read: what it holds so far, and the entries about files and verification, which
are kept until the section is complete. -/
structure Draft where
  forceInsecureV3 : Bool
  kept : List (List Char × Found)

/-- The one field that is read at once. -/
def fields : List (RecordField Draft) := [
  .of "force_insecure_v3" false Place.readFlag fun d v => { d with forceInsecureV3 := v }]

def keep (p : Place) (name : List Char) (n : Node) (d : Draft) : Read Draft := do
  let found ← Place.readAny p.document p.depth p.path n
  return { d with kept := d.kept ++ [(name, found)] }

/-- A path; null and an empty text name none. -/
def path (found : Found) : Except Misfit (Option String) :=
  match found with
  | .null => .ok none
  | .text s => .ok (TlsFiles.path? (String.ofList s))
  | f => .error (.kind f.describe "a string")

def flag (found : Found) : Except Misfit Bool :=
  match found with
  | .flag b => .ok b
  | f => .error (.kind f.describe "a boolean")

/-- What an entry about files and verification does with what it holds. -/
def entry? (name : String) : Option (Found → TlsFiles → Except Misfit TlsFiles) :=
  match name with
  | "ca_file" => some fun f t => (path f).map fun v => { t with caFile := v }
  | "key_file" => some fun f t => (path f).map fun v => { t with keyFile := v }
  | "cert_file" => some fun f t => (path f).map fun v => { t with certFile := v }
  | "insecure" => some fun f t => (flag f).map fun v => { t with insecure := v }
  | _ => none

/-- The entries that were kept, in their order; `seen` names those that came before. -/
def gather : List (List Char × Found) → List String → TlsFiles → Except Misfit TlsFiles
  | [], _, t => .ok t
  | (name, found) :: rest, seen, t =>
    let name := String.ofList name
    match entry? name with
    | none => gather rest seen t
    | some put =>
      if seen.contains name then .error (.duplicate name)
      else do gather rest (name :: seen) (← put found t)

def read (p : Place) (n : Node) : Read TlsSection := do
  let d ← p.readRecord "TlsConfig" fields keep ⟨true, []⟩ n
  match gather d.kept [] ⟨none, none, none, false⟩ with
  | .ok t => return ⟨t, d.forceInsecureV3⟩
  | .error m => p.refuse m

end TlsSection

namespace ServiceConfig

def fields : List (RecordField ServiceConfig) := [
  .of "settings" false Settings.read fun c v => { c with settings := v },
  .of "keystone" true Credentials.read fun c v => { c with identity := v },
  .of "tls" false (fun p => p.readOption (TlsSection.read p)) fun c v => { c with tls := v }]

def read (p : Place) : Node → Read ServiceConfig :=
  p.readRecord "ServiceConfig" fields Place.skipOther ⟨.default, .empty, none⟩

def ofYaml (text : String) : Except Unread ServiceConfig := Yaml.read read text

end ServiceConfig

end TokenKeeper
