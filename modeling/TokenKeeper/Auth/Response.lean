import TokenKeeper.Auth.Error
import TokenKeeper.Json.Schema
import TokenKeeper.Token.Basic
/-!
# Responses of the identity service

The two shapes of a token response. In v2 the whole token travels in the body, whose keys may be
capitalised; in v3 its id travels in a header and the keys have one spelling.
-/
namespace TokenKeeper

structure Tenant where
  id : Option String
  name : Option String
  description : Option String
  enabled : Option Bool
deriving DecidableEq, Repr

structure User where
  id : Option String
  username : Option String
deriving DecidableEq, Repr

/-- The body of a v2 token response. -/
structure V2Response where
  id : Option String
  issuedAt : Option String
  expires : Option String
  tenant : Option Tenant
  user : Option User
deriving DecidableEq, Repr

/-- The body of a v3 token response. -/
structure V3Response where
  issuedAt : Option String
  expiresAt : Option String
deriving DecidableEq, Repr

/-- A field of the response that a token cannot do without. -/
def required (value : Option String) (field : String) : Except AuthError String :=
  match value.filter fun v => !v.isEmpty with
  | some v => .ok v
  | none => .error (.invalidResponse ("'" ++ field ++ "' missing from token response"))

/-- The record a body holds. -/
def readBody (s : Json.Schema) (body : String) : Except AuthError Json.Fields :=
  (s.read body).mapError fun m => .invalidResponse ("undecodable token response: " ++ m.message)

namespace V2Response

open Json in
def tenantSchema : Schema := ⟨"V2Tenant", [
  .text "id" ["Id"], .text "name" ["Name"], .text "description" ["Description"],
  .flag "enabled" ["Enabled"]]⟩

open Json in
def userSchema : Schema := ⟨"V2User", [.text "id" ["Id"], .text "username" ["Username"]]⟩

open Json in
def tokenSchema : Schema := ⟨"V2Token", [
  .text "id" ["Id"], .text "issued_at" ["Issued_At"], .text "expires" ["Expires"],
  .optionalRecord "tenant" ["Tenant"] tenantSchema]⟩

open Json in
/-- What a token gives access to, and whom. -/
def accessSchema : Schema := ⟨"V2Access", [
  .record "token" ["Token"] tokenSchema, .optionalRecord "user" ["User"] userSchema]⟩

open Json in
def schema : Schema := ⟨"V2TokenResponse", [.record "access" ["Access"] accessSchema]⟩

/-- The response whose fields have been found. -/
def ofFields (fs : Json.Fields) : V2Response :=
  let access := (fs.record? "access" accessSchema).getD []
  let token := (access.record? "token" tokenSchema).getD []
  { id := token.text? "id"
    issuedAt := token.text? "issued_at"
    expires := token.text? "expires"
    tenant := (token.record? "tenant" tenantSchema).map fun t =>
      ⟨t.text? "id", t.text? "name", t.text? "description", t.flag? "enabled"⟩
    user := (access.record? "user" userSchema).map fun u => ⟨u.text? "id", u.text? "username"⟩ }

def decode (body : String) : Except AuthError V2Response :=
  (readBody schema body).map ofFields

def token (r : V2Response) : Except AuthError Token := do
  let id ← required r.id "access.token.id"
  let issuedAt ← required r.issuedAt "access.token.issued_at"
  let expiresAt ← required r.expires "access.token.expires"
  return ⟨id, issuedAt, expiresAt⟩

end V2Response

namespace V3Response

open Json in
def tokenSchema : Schema := ⟨"V3Token", [.text "issued_at" [], .text "expires_at" []]⟩

open Json in
def schema : Schema := ⟨"V3TokenResponse", [.record "token" [] tokenSchema]⟩

def ofFields (fs : Json.Fields) : V3Response :=
  let token := (fs.record? "token" tokenSchema).getD []
  ⟨token.text? "issued_at", token.text? "expires_at"⟩

def decode (body : String) : Except AuthError V3Response :=
  (readBody schema body).map ofFields

end V3Response

end TokenKeeper
