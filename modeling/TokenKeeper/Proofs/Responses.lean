import TokenKeeper.Auth.Response
import TokenKeeper.Proofs.Forms

/-!
# The forms of token responses

Which bodies are responses, entry by entry (`V2Response.form`, `V3Response.form`), and what a response
then says of its token: what the members give that are reached on the way to it (`V2Response.Reaches`,
`V2Response.Describes`, and the like for v3). A text or record that is left out or null is absent. All
this is asked of a body without the schema by which it is read.
-/

namespace TokenKeeper

open Json

variable {s : Schema} {body : String} {d : Draft} {found : Fields}

theorem readBody_eq_ok_iff :
    readBody s body = .ok found ↔ ∃ d, Holds body d ∧ s.check d = .ok found := by
  unfold readBody Schema.read Holds
  rcases Reading.ofText body with ⟨d, trailing⟩
  cases hcheck : s.check d with
  | error m => simp [hcheck, bind, Except.bind, Except.mapError]
  | ok found' =>
    cases trailing <;> simp [hcheck, bind, Except.bind, pure, Except.pure, throw, throwThe,
      MonadExceptOf.throw, Except.mapError]

/-- What is read from a body is made of the fields of the value that it holds. -/
theorem read_eq_ok_iff {R : Type} {ofFields : Fields → R} {r : R} :
    (readBody s body).map ofFields = .ok r ↔
      ∃ d found, Holds body d ∧ s.check d = .ok found ∧ r = ofFields found := by
  simp only [map_eq_ok_iff, readBody_eq_ok_iff]
  exact ⟨fun ⟨found, ⟨d, hd, hfound⟩, hr⟩ => ⟨d, found, hd, hfound, hr⟩,
    fun ⟨d, found, hd, hfound, hr⟩ => ⟨found, ⟨d, hd, hfound⟩, hr⟩⟩

theorem Json.Holds.readBody_eq_ok_iff (h : Holds body d) :
    readBody s body = .ok found ↔ s.check d = .ok found :=
  TokenKeeper.readBody_eq_ok_iff.trans
    ⟨fun ⟨_, hd, hcheck⟩ => h.unique hd ▸ hcheck, fun hcheck => ⟨d, h, hcheck⟩⟩

theorem exists_read_iff {R : Type} {es : List Entry} (hs : s.Asks es) (ofFields : Fields → R)
    (h : Holds body d) : (∃ r, (readBody s body).map ofFields = .ok r) ↔ IsRecord es d := by
  simp only [← hs.exists_check_iff, map_eq_ok_iff, h.readBody_eq_ok_iff]
  exact ⟨fun ⟨_, found, hcheck, _⟩ => ⟨found, hcheck⟩,
    fun ⟨found, hcheck⟩ => ⟨_, found, hcheck, rfl⟩⟩

structure Tenant.Describes (t : Tenant) (tenant : Members) : Prop where
  id : ∀ text, t.id = some text ↔ Gives tenant ["id", "Id"] (.string (.ok text))
  name : ∀ text, t.name = some text ↔ Gives tenant ["name", "Name"] (.string (.ok text))
  description : ∀ text, t.description = some text ↔
    Gives tenant ["description", "Description"] (.string (.ok text))
  enabled : ∀ b, t.enabled = some b ↔ Gives tenant ["enabled", "Enabled"] (.bool b)

structure User.Describes (u : User) (user : Members) : Prop where
  id : ∀ text, u.id = some text ↔ Gives user ["id", "Id"] (.string (.ok text))
  username : ∀ text, u.username = some text ↔
    Gives user ["username", "Username"] (.string (.ok text))

namespace V2Response

def tenantForm : List Entry := [.text "id" ["Id"], .text "name" ["Name"],
  .text "description" ["Description"], .flag "enabled" ["Enabled"]]

def userForm : List Entry := [.text "id" ["Id"], .text "username" ["Username"]]

def tokenForm : List Entry := [.text "id" ["Id"], .text "issued_at" ["Issued_At"],
  .text "expires" ["Expires"], .optionalRecord "tenant" ["Tenant"] tenantForm]

def accessForm : List Entry :=
  [.record "token" ["Token"] tokenForm, .optionalRecord "user" ["User"] userForm]

/-- What a body must be to be a response. -/
def form : List Entry := [.record "access" ["Access"] accessForm]

/-- The members of the records on the way to the token. -/
def Reaches (d : Draft) (access token : Members) : Prop :=
  ∃ ms a t, Lists ["access"] d ms ∧ Gives ms ["access", "Access"] a ∧
    Lists ["token", "user"] a access ∧ Gives access ["token", "Token"] t ∧
    Lists ["id", "issued_at", "expires", "tenant"] t token

/-- What a response says about its token, as its members give it. -/
structure Describes (v : V2Response) (access token : Members) : Prop where
  id : ∀ text, v.id = some text ↔ Gives token ["id", "Id"] (.string (.ok text))
  issuedAt : ∀ text, v.issuedAt = some text ↔
    Gives token ["issued_at", "Issued_At"] (.string (.ok text))
  expires : ∀ text, v.expires = some text ↔ Gives token ["expires", "Expires"] (.string (.ok text))
  noTenant : v.tenant = none ↔ ∀ d, Gives token ["tenant", "Tenant"] d → d = .null
  tenant : ∀ d tenant, Gives token ["tenant", "Tenant"] d →
    Lists ["id", "name", "description", "enabled"] d tenant →
      ∃ t, v.tenant = some t ∧ t.Describes tenant
  noUser : v.user = none ↔ ∀ d, Gives access ["user", "User"] d → d = .null
  user : ∀ d user, Gives access ["user", "User"] d → Lists ["id", "username"] d user →
    ∃ u, v.user = some u ∧ u.Describes user

theorem tenantSchema_asks : tenantSchema.Asks tenantForm where
  unambiguous := by decide
  entries := by
    simp only [Schema.entries, tenantSchema, tenantForm, List.map_cons, List.map_nil,
      Field.entry_text, Field.entry_flag]

theorem userSchema_asks : userSchema.Asks userForm where
  unambiguous := by decide
  entries := by
    simp only [Schema.entries, userSchema, userForm, List.map_cons, List.map_nil, Field.entry_text]

theorem tokenSchema_asks : tokenSchema.Asks tokenForm where
  unambiguous := by decide
  entries := by
    simp only [Schema.entries, tokenSchema, tokenForm, List.map_cons, List.map_nil,
      Field.entry_text, Field.entry_optionalRecord tenantSchema_asks]

theorem accessSchema_asks : accessSchema.Asks accessForm where
  unambiguous := by decide
  entries := by
    simp only [Schema.entries, accessSchema, accessForm, List.map_cons, List.map_nil,
      Field.entry_record tokenSchema_asks, Field.entry_optionalRecord userSchema_asks]

theorem schema_asks : schema.Asks form where
  unambiguous := by decide
  entries := by
    simp only [Schema.entries, schema, form, List.map_cons, List.map_nil,
      Field.entry_record accessSchema_asks]

variable {access token tenant user : Members} {v : V2Response}

/-- The bodies that are accepted are those of the form. -/
theorem decode_isOk_iff (h : Holds body d) : (∃ v, decode body = .ok v) ↔ IsRecord form d :=
  exists_read_iff schema_asks ofFields h

theorem exists_reaches (h : IsRecord form d) : ∃ access token, Reaches d access token := by
  obtain ⟨ms, hms, hform⟩ := h
  obtain ⟨a, ha⟩ := hform.complete _ (.head _) rfl
  obtain ⟨access, haccess, hform⟩ := hform.values _ (.head _) a ha
  obtain ⟨t, ht⟩ := hform.complete _ (.head _) rfl
  obtain ⟨token, htoken, -⟩ := hform.values _ (.head _) t ht
  exact ⟨access, token, ms, a, t, hms, ha, haccess, ht, htoken⟩

theorem describes_tenant (hform : MakesRecord tokenForm token) (hfinds : tokenSchema.Finds token found)
    (hd : Gives token ["tenant", "Tenant"] d)
    (htenant : Lists ["id", "name", "description", "enabled"] d tenant) :
    ∃ t : Tenant, ((found.record? "tenant" tenantSchema).map fun fs =>
        ⟨fs.text? "id", fs.text? "name", fs.text? "description", fs.flag? "enabled"⟩) = some t ∧
      t.Describes tenant := by
  have hrecord := (hform.values _ (.tail _ (.tail _ (.tail _ (.head _)))) d hd).resolve_left
    htenant.ne_null
  obtain ⟨foundTenant, hcheck⟩ := tenantSchema_asks.exists_check_iff.2 hrecord
  obtain ⟨-, hfindsTenant⟩ := tenantSchema_asks.finds hcheck htenant
  have htenant := hfinds.record?_eq (f := .optionalRecord "tenant" ["Tenant"] tenantSchema)
    (.tail _ (.tail _ (.tail _ (.head _)))) hd hcheck
  exact ⟨_, congrArg (Option.map _) htenant, {
    id := fun _ => hfindsTenant.text?_iff (f := .text "id" ["Id"]) (.head _)
    name := fun _ => hfindsTenant.text?_iff (f := .text "name" ["Name"]) (.tail _ (.head _))
    description := fun _ => hfindsTenant.text?_iff (f := .text "description" ["Description"])
      (.tail _ (.tail _ (.head _)))
    enabled := fun _ => hfindsTenant.flag?_iff (f := .flag "enabled" ["Enabled"])
      (.tail _ (.tail _ (.tail _ (.head _)))) }⟩

theorem describes_user (hform : MakesRecord accessForm access) (hfinds : accessSchema.Finds access found)
    (hd : Gives access ["user", "User"] d) (huser : Lists ["id", "username"] d user) :
    ∃ u : User, ((found.record? "user" userSchema).map fun fs =>
        ⟨fs.text? "id", fs.text? "username"⟩) = some u ∧ u.Describes user := by
  have hrecord := (hform.values _ (.tail _ (.head _)) d hd).resolve_left huser.ne_null
  obtain ⟨foundUser, hcheck⟩ := userSchema_asks.exists_check_iff.2 hrecord
  obtain ⟨-, hfindsUser⟩ := userSchema_asks.finds hcheck huser
  have huser := hfinds.record?_eq (f := .optionalRecord "user" ["User"] userSchema)
    (.tail _ (.head _)) hd hcheck
  exact ⟨_, congrArg (Option.map _) huser, {
    id := fun _ => hfindsUser.text?_iff (f := .text "id" ["Id"]) (.head _)
    username := fun _ => hfindsUser.text?_iff (f := .text "username" ["Username"])
      (.tail _ (.head _)) }⟩

/-- The records on the way to the token are there, so that what counts without them does not. -/
theorem ofFields_of_records {foundAccess foundToken : Fields}
    (haccess : found.record? "access" accessSchema = some foundAccess)
    (htoken : foundAccess.record? "token" tokenSchema = some foundToken) :
    ofFields found =
      { id := foundToken.text? "id"
        issuedAt := foundToken.text? "issued_at"
        expires := foundToken.text? "expires"
        tenant := (foundToken.record? "tenant" tenantSchema).map fun t =>
          ⟨t.text? "id", t.text? "name", t.text? "description", t.flag? "enabled"⟩
        user := (foundAccess.record? "user" userSchema).map fun u =>
          ⟨u.text? "id", u.text? "username"⟩ } := by
  simp only [ofFields, haccess, htoken, Option.getD_some]

/-- The response of a body is made of what its members give. -/
theorem describes_of_check (hcheck : schema.check d = .ok found) (hreaches : Reaches d access token) :
    (ofFields found).Describes access token := by
  obtain ⟨ms, a, t, hms, ha, haccess, ht, htoken⟩ := hreaches
  obtain ⟨hform, hfinds⟩ := schema_asks.finds hcheck hms
  obtain ⟨foundAccess, hcheckAccess⟩ :=
    accessSchema_asks.exists_check_iff.2 (hform.values _ (.head _) a ha)
  obtain ⟨hformAccess, hfindsAccess⟩ := accessSchema_asks.finds hcheckAccess haccess
  obtain ⟨foundToken, hcheckToken⟩ :=
    tokenSchema_asks.exists_check_iff.2 (hformAccess.values _ (.head _) t ht)
  obtain ⟨hformToken, hfindsToken⟩ := tokenSchema_asks.finds hcheckToken htoken
  have haccess' : found.record? "access" accessSchema = some foundAccess :=
    hfinds.record?_eq (f := .record "access" ["Access"] accessSchema) (.head _) ha hcheckAccess
  have htoken' : foundAccess.record? "token" tokenSchema = some foundToken :=
    hfindsAccess.record?_eq (f := .record "token" ["Token"] tokenSchema) (.head _) ht hcheckToken
  rw [ofFields_of_records haccess' htoken']
  constructor
  case id => exact fun _ => hfindsToken.text?_iff (f := .text "id" ["Id"]) (.head _)
  case issuedAt =>
    exact fun _ => hfindsToken.text?_iff (f := .text "issued_at" ["Issued_At"]) (.tail _ (.head _))
  case expires =>
    exact fun _ => hfindsToken.text?_iff (f := .text "expires" ["Expires"])
      (.tail _ (.tail _ (.head _)))
  case noTenant =>
    refine Option.map_eq_none_iff.trans (hfindsToken.record?_eq_none_iff
      (f := .optionalRecord "tenant" ["Tenant"] tenantSchema)
      (.tail _ (.tail _ (.tail _ (.head _)))) fun d hd => ?_)
    exact (hformToken.values _ (.tail _ (.tail _ (.tail _ (.head _)))) d hd).imp_right
      tenantSchema_asks.exists_check_iff.2
  case tenant => exact fun d tenant => describes_tenant hformToken hfindsToken
  case noUser =>
    refine Option.map_eq_none_iff.trans (hfindsAccess.record?_eq_none_iff
      (f := .optionalRecord "user" ["User"] userSchema) (.tail _ (.head _)) fun d hd => ?_)
    exact (hformAccess.values _ (.tail _ (.head _)) d hd).imp_right userSchema_asks.exists_check_iff.2
  case user => exact fun d user => describes_user hformAccess hfindsAccess

theorem decode_describes (h : Holds body d) (hreaches : Reaches d access token)
    (hv : decode body = .ok v) : v.Describes access token := by
  obtain ⟨d', found, hd, hcheck, rfl⟩ := read_eq_ok_iff.1 hv
  obtain rfl := h.unique hd
  exact describes_of_check hcheck hreaches

/-- The texts of a token that a body gives. -/
theorem exists_decode_iff {t : Token} :
    (∃ v, decode body = .ok v ∧
      v.id = some t.id ∧ v.issuedAt = some t.issuedAt ∧ v.expires = some t.expiresAt) ↔
    ∃ d access token, Holds body d ∧ IsRecord form d ∧ Reaches d access token ∧
      Gives token ["id", "Id"] (.string (.ok t.id)) ∧
      Gives token ["issued_at", "Issued_At"] (.string (.ok t.issuedAt)) ∧
      Gives token ["expires", "Expires"] (.string (.ok t.expiresAt)) := by
  constructor
  · rintro ⟨v, hv, hid, hissued, hexpires⟩
    obtain ⟨d, -, hd, -, -⟩ := read_eq_ok_iff.1 hv
    have hform := (decode_isOk_iff hd).1 ⟨v, hv⟩
    obtain ⟨access, token, hreaches⟩ := exists_reaches hform
    have hdescribes := decode_describes hd hreaches hv
    exact ⟨d, access, token, hd, hform, hreaches, (hdescribes.id _).1 hid,
      (hdescribes.issuedAt _).1 hissued, (hdescribes.expires _).1 hexpires⟩
  · rintro ⟨d, access, token, hd, hform, hreaches, hid, hissued, hexpires⟩
    obtain ⟨v, hv⟩ := (decode_isOk_iff hd).2 hform
    have hdescribes := decode_describes hd hreaches hv
    exact ⟨v, hv, (hdescribes.id _).2 hid, (hdescribes.issuedAt _).2 hissued,
      (hdescribes.expires _).2 hexpires⟩

end V2Response

namespace V3Response

def tokenForm : List Entry := [.text "issued_at" [], .text "expires_at" []]

/-- What a body must be to be a response; its keys have one spelling. -/
def form : List Entry := [.record "token" [] tokenForm]

/-- The members of the token's record. -/
def Reaches (d : Draft) (token : Members) : Prop :=
  ∃ ms t, Lists ["token"] d ms ∧ Gives ms ["token"] t ∧ Lists ["issued_at", "expires_at"] t token

/-- What a response says about its token, as its members give it. -/
structure Describes (v : V3Response) (token : Members) : Prop where
  issuedAt : ∀ text, v.issuedAt = some text ↔ Gives token ["issued_at"] (.string (.ok text))
  expiresAt : ∀ text, v.expiresAt = some text ↔ Gives token ["expires_at"] (.string (.ok text))

theorem tokenSchema_asks : tokenSchema.Asks tokenForm where
  unambiguous := by decide
  entries := by
    simp only [Schema.entries, tokenSchema, tokenForm, List.map_cons, List.map_nil, Field.entry_text]

theorem schema_asks : schema.Asks form where
  unambiguous := by decide
  entries := by
    simp only [Schema.entries, schema, form, List.map_cons, List.map_nil,
      Field.entry_record tokenSchema_asks]

variable {token : Members} {v : V3Response}

/-- The bodies that are accepted are those of the form. -/
theorem decode_isOk_iff (h : Holds body d) : (∃ v, decode body = .ok v) ↔ IsRecord form d :=
  exists_read_iff schema_asks ofFields h

theorem exists_reaches (h : IsRecord form d) : ∃ token, Reaches d token := by
  obtain ⟨ms, hms, hform⟩ := h
  obtain ⟨t, ht⟩ := hform.complete _ (.head _) rfl
  obtain ⟨token, htoken, -⟩ := hform.values _ (.head _) t ht
  exact ⟨token, ms, t, hms, ht, htoken⟩

theorem ofFields_of_record {foundToken : Fields}
    (htoken : found.record? "token" tokenSchema = some foundToken) :
    ofFields found =
      { issuedAt := foundToken.text? "issued_at", expiresAt := foundToken.text? "expires_at" } := by
  simp only [ofFields, htoken, Option.getD_some]

theorem decode_describes (h : Holds body d) (hreaches : Reaches d token)
    (hv : decode body = .ok v) : v.Describes token := by
  obtain ⟨d', found, hd, hcheck, rfl⟩ := read_eq_ok_iff.1 hv
  obtain rfl := h.unique hd
  obtain ⟨ms, t, hms, ht, htoken⟩ := hreaches
  obtain ⟨hform, hfinds⟩ := schema_asks.finds hcheck hms
  obtain ⟨foundToken, hcheckToken⟩ :=
    tokenSchema_asks.exists_check_iff.2 (hform.values _ (.head _) t ht)
  obtain ⟨-, hfindsToken⟩ := tokenSchema_asks.finds hcheckToken htoken
  have htoken' : found.record? "token" tokenSchema = some foundToken :=
    hfinds.record?_eq (f := .record "token" [] tokenSchema) (.head _) ht hcheckToken
  rw [ofFields_of_record htoken']
  exact ⟨fun _ => hfindsToken.text?_iff (f := .text "issued_at" []) (.head _),
    fun _ => hfindsToken.text?_iff (f := .text "expires_at" []) (.tail _ (.head _))⟩

/-- The times of a token that a body gives. -/
theorem exists_decode_iff {t : Token} :
    (∃ v, decode body = .ok v ∧ v.issuedAt = some t.issuedAt ∧ v.expiresAt = some t.expiresAt) ↔
    ∃ d token, Holds body d ∧ IsRecord form d ∧ Reaches d token ∧
      Gives token ["issued_at"] (.string (.ok t.issuedAt)) ∧
      Gives token ["expires_at"] (.string (.ok t.expiresAt)) := by
  constructor
  · rintro ⟨v, hv, hissued, hexpires⟩
    obtain ⟨d, -, hd, -, -⟩ := read_eq_ok_iff.1 hv
    have hform := (decode_isOk_iff hd).1 ⟨v, hv⟩
    obtain ⟨token, hreaches⟩ := exists_reaches hform
    have hdescribes := decode_describes hd hreaches hv
    exact ⟨d, token, hd, hform, hreaches, (hdescribes.issuedAt _).1 hissued,
      (hdescribes.expiresAt _).1 hexpires⟩
  · rintro ⟨d, token, hd, hform, hreaches, hissued, hexpires⟩
    obtain ⟨v, hv⟩ := (decode_isOk_iff hd).2 hform
    have hdescribes := decode_describes hd hreaches hv
    exact ⟨v, hv, (hdescribes.issuedAt _).2 hissued, (hdescribes.expiresAt _).2 hexpires⟩

end V3Response

end TokenKeeper
