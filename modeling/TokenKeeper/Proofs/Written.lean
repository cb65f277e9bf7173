import TokenKeeper.Proofs.Rendering
import TokenKeeper.Proofs.Responses

/-!
# Responses that are written out

A response written as a service would write it, with null for what is absent, is read back as itself
(`V2Response.decode_render`, `V3Response.decode_render`). So there are bodies of the form of a response,
one at least for each response that there is.
-/

namespace TokenKeeper

namespace Json

/-- A text, or null for none. -/
def ofText (text : Option String) : Json := text.elim .null .string

def ofFlag (flag : Option Bool) : Json := flag.elim .null .bool

variable (text : Option String) (flag : Option Bool) {d : Draft}

theorem numberless_ofText : (ofText text).Numberless := by
  cases text <;> trivial

theorem numberless_ofFlag : (ofFlag flag).Numberless := by
  cases flag <;> trivial

namespace Draft

def ofText (text : Option String) : Draft := text.elim .null fun s => .string (.ok s)

def ofFlag (flag : Option Bool) : Draft := flag.elim .null .bool

theorem toJson_eq_ofText_iff : d.toJson = .ok (.ofText text) ↔ d = .ofText text := by
  cases text with
  | none => exact toJson_eq_null_iff
  | some _ => exact toJson_eq_string_iff

theorem toJson_eq_ofFlag_iff : d.toJson = .ok (.ofFlag flag) ↔ d = .ofFlag flag := by
  cases flag with
  | none => exact toJson_eq_null_iff
  | some _ => exact toJson_eq_bool_iff

@[simp] theorem checkText_ofText : (ofText text).checkText = .ok () := by cases text <;> rfl

@[simp] theorem text?_ofText : (ofText text).text? = text := by cases text <;> rfl

@[simp] theorem checkFlag_ofFlag : (ofFlag flag).checkFlag = .ok () := by cases flag <;> rfl

@[simp] theorem flag?_ofFlag : (ofFlag flag).flag? = flag := by cases flag <;> rfl

end Draft

end Json

open Json

section
variable {R : Type} {s : Schema} {d : Draft} {ofFields : Fields → R}

/-- What is made of a record's fields is made of them also where the record may be null. -/
theorem check_of_elim {toJson : R → Json} {r : Option R}
    (hcheck : ∀ r, d.toJson = .ok (toJson r) → ∃ found, s.check d = .ok found ∧ ofFields found = r)
    (h : d.toJson = .ok (r.elim .null toJson)) :
    (d = .null ∨ ∃ found, s.check d = .ok found) ∧ (s.check d).toOption.map ofFields = r := by
  cases r with
  | none =>
    obtain rfl := Draft.toJson_eq_null_iff.1 h
    exact ⟨.inl rfl, rfl⟩
  | some r =>
    obtain ⟨found, hfound, rfl⟩ := hcheck r h
    exact ⟨.inr ⟨found, hfound⟩, by rw [hfound]; rfl⟩

theorem read_render {v : Json} {r : R} (hv : v.Numberless)
    (h : ∀ d : Draft, d.toJson = .ok v → ∃ found, s.check d = .ok found ∧ ofFields found = r) :
    (readBody s v.render).map ofFields = .ok r := by
  obtain ⟨d, hd, hdraft⟩ := ofText_render hv
  obtain ⟨found, hfound, hr⟩ := h d hdraft
  exact read_eq_ok_iff.2 ⟨d, found, hd, hfound, hr.symm⟩

end

variable {d : Draft}

def Tenant.toJson (t : Tenant) : Json := .object [("id", .ofText t.id), ("name", .ofText t.name),
  ("description", .ofText t.description), ("enabled", .ofFlag t.enabled)]

def User.toJson (u : User) : Json := .object [("id", .ofText u.id), ("username", .ofText u.username)]

namespace V2Response

/-- A response as a body says it, with every key in its first spelling. -/
def toJson (v : V2Response) : Json := .object [("access", .object [
  ("token", .object [("id", .ofText v.id), ("issued_at", .ofText v.issuedAt),
    ("expires", .ofText v.expires), ("tenant", v.tenant.elim .null Tenant.toJson)]),
  ("user", v.user.elim .null User.toJson)])]

theorem numberless_toJson (v : V2Response) : v.toJson.Numberless := by
  rcases v with ⟨_, _, _, _ | t, _ | u⟩ <;>
    simp [toJson, Tenant.toJson, User.toJson, Numberless, MembersNumberless, numberless_ofText,
      numberless_ofFlag]

theorem check_tenant {t : Tenant} (h : d.toJson = .ok t.toJson) :
    ∃ found, tenantSchema.check d = .ok found ∧ (⟨found.text? "id", found.text? "name",
      found.text? "description", found.flag? "enabled"⟩ : Tenant) = t := by
  simp only [Tenant.toJson, Draft.toJson_eq_object_iff, Draft.toJsonMembers_eq_cons_iff,
    Draft.toJsonMembers_eq_nil_iff, Draft.toJson_eq_ofText_iff, Draft.toJson_eq_ofFlag_iff] at h
  obtain ⟨_, rfl, _, _, rfl, rfl, _, _, rfl, rfl, _, _, rfl, rfl, _, _, rfl, rfl, rfl⟩ := h
  refine ⟨_, Schema.check_in_order tenantSchema_asks.unambiguous [_, _, _, _] rfl ?_, ?_⟩
  · simp [tenantSchema, Field.text, Field.flag]
  · simp [tenantSchema, Field.text, Field.flag, Schema.names, Fields.text?, Fields.flag?,
      List.lookup_cons]

theorem check_user {u : User} (h : d.toJson = .ok u.toJson) :
    ∃ found, userSchema.check d = .ok found ∧
      (⟨found.text? "id", found.text? "username"⟩ : User) = u := by
  simp only [User.toJson, Draft.toJson_eq_object_iff, Draft.toJsonMembers_eq_cons_iff,
    Draft.toJsonMembers_eq_nil_iff, Draft.toJson_eq_ofText_iff] at h
  obtain ⟨_, rfl, _, _, rfl, rfl, _, _, rfl, rfl, rfl⟩ := h
  refine ⟨_, Schema.check_in_order userSchema_asks.unambiguous [_, _] rfl ?_, ?_⟩
  · simp [userSchema, Field.text]
  · simp [userSchema, Field.text, Schema.names, Fields.text?, List.lookup_cons]

theorem check_of_toJson {v : V2Response} (h : d.toJson = .ok v.toJson) :
    ∃ found, schema.check d = .ok found ∧ ofFields found = v := by
  simp only [toJson, Draft.toJson_eq_object_iff, Draft.toJsonMembers_eq_cons_iff,
    Draft.toJsonMembers_eq_nil_iff, Draft.toJson_eq_ofText_iff] at h
  obtain ⟨_, rfl, access, _, rfl, ⟨_, haccess, token, _, rfl, ⟨_, htoken, _, _, rfl, rfl, _, _, rfl,
    rfl, _, _, rfl, rfl, tenant, _, rfl, htenant, rfl⟩, user, _, rfl, huser, rfl⟩, rfl⟩ := h
  obtain ⟨htenant, htenantIs⟩ := check_of_elim (fun _ => check_tenant) htenant
  obtain ⟨huser, huserIs⟩ := check_of_elim (fun _ => check_user) huser
  -- from the inside out, a record fits if what is in it does
  have htoken : tokenSchema.check token = .ok [("id", .ofText v.id),
      ("issued_at", .ofText v.issuedAt), ("expires", .ofText v.expires), ("tenant", tenant)] := by
    subst htoken
    exact Schema.check_in_order tokenSchema_asks.unambiguous [_, _, _, _] rfl
      (by simpa [tokenSchema, Field.text] using Field.check_optionalRecord_iff.2 htenant)
  have haccess : accessSchema.check access = .ok [("token", token), ("user", user)] := by
    subst haccess
    exact Schema.check_in_order accessSchema_asks.unambiguous [_, _] rfl
      (by simp [accessSchema, Field.check_record_iff.2 ⟨_, htoken⟩,
        Field.check_optionalRecord_iff.2 huser])
  have hschema : schema.check (.object [(.ok "access", access)] none) = .ok [("access", access)] :=
    Schema.check_in_order schema_asks.unambiguous [_] rfl
      (by simp [schema, Field.check_record_iff.2 ⟨_, haccess⟩])
  have haccess' : Fields.record? [("access", access)] "access" accessSchema = some _ :=
    congrArg Except.toOption haccess
  have htoken' : Fields.record? [("token", token), ("user", user)] "token" tokenSchema = some _ :=
    congrArg Except.toOption htoken
  refine ⟨_, hschema, (ofFields_of_records haccess' htoken').trans ?_⟩
  show _ = V2Response.mk v.id v.issuedAt v.expires v.tenant v.user
  rw [V2Response.mk.injEq]
  refine ⟨?_, ?_, ?_, htenantIs, huserIs⟩ <;> simp [Fields.text?, List.lookup_cons]

theorem decode_render (v : V2Response) : decode v.toJson.render = .ok v :=
  read_render v.numberless_toJson fun _ => check_of_toJson

end V2Response

namespace V3Response

/-- A response as a body says it. -/
def toJson (v : V3Response) : Json := .object [("token", .object [
  ("issued_at", .ofText v.issuedAt), ("expires_at", .ofText v.expiresAt)])]

theorem numberless_toJson (v : V3Response) : v.toJson.Numberless := by
  simp [toJson, Numberless, MembersNumberless, numberless_ofText]

theorem check_of_toJson {v : V3Response} (h : d.toJson = .ok v.toJson) :
    ∃ found, schema.check d = .ok found ∧ ofFields found = v := by
  simp only [toJson, Draft.toJson_eq_object_iff, Draft.toJsonMembers_eq_cons_iff,
    Draft.toJsonMembers_eq_nil_iff, Draft.toJson_eq_ofText_iff] at h
  obtain ⟨_, rfl, token, _, rfl, ⟨_, htoken, _, _, rfl, rfl, _, _, rfl, rfl, rfl⟩, rfl⟩ := h
  have htoken : tokenSchema.check token =
      .ok [("issued_at", .ofText v.issuedAt), ("expires_at", .ofText v.expiresAt)] := by
    subst htoken
    exact Schema.check_in_order tokenSchema_asks.unambiguous [_, _] rfl
      (by simp [tokenSchema, Field.text])
  have hschema : schema.check (.object [(.ok "token", token)] none) = .ok [("token", token)] :=
    Schema.check_in_order schema_asks.unambiguous [_] rfl
      (by simp [schema, Field.check_record_iff.2 ⟨_, htoken⟩])
  have htoken' : Fields.record? [("token", token)] "token" tokenSchema = some _ :=
    congrArg Except.toOption htoken
  refine ⟨_, hschema, ?_⟩
  rw [ofFields_of_record htoken']
  simp [Fields.text?, List.lookup_cons]

theorem decode_render (v : V3Response) : decode v.toJson.render = .ok v :=
  read_render v.numberless_toJson fun _ => check_of_toJson

end V3Response

end TokenKeeper
