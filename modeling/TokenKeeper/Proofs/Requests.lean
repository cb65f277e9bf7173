import TokenKeeper.Proofs.Conclusion
import TokenKeeper.Proofs.Rendering

/-!
# The request for a token

The text of a request is read back as the tree that the identity service documents for the way the
credentials call for, with each text of the credentials in its own place and nothing else. So a text of
the credentials cannot add to the request, whatever it holds, and the request tells those texts of the
credentials apart that it is made of, and no others (`Strategy.body_holds_credentials`).
-/

namespace TokenKeeper

namespace Strategy
variable {s : Strategy} {c d : Credentials}

/-- The credentials have the same texts where the request takes them from. -/
def Agree : Strategy → Credentials → Credentials → Prop
  | v2Token, c, d => c.effectiveAdminToken = d.effectiveAdminToken
  | v2Password, c, d =>
    c.tenantName = d.tenantName ∧ c.username = d.username ∧ c.password = d.password
  | v3Password, c, d =>
    c.username = d.username ∧ c.password = d.password ∧ c.domainName = d.domainName ∧
      c.projectName = d.projectName ∧ c.projectDomainName = d.projectDomainName

theorem request_numberless (s : Strategy) (c : Credentials) : (s.request c).Numberless := by
  cases s <;> simp [request, Json.Numberless, Json.MembersNumberless, Json.ItemsNumberless]

theorem parse_body (s : Strategy) (c : Credentials) : Json.parse (s.body c) = .ok (s.request c) :=
  Json.parse_render (s.request_numberless c)

theorem exists_adminToken (h : ofCredentials c = v2Token) :
    ∃ token, c.effectiveAdminToken = some token := by
  unfold ofCredentials at h
  split at h
  · split at h
    · next hsome => exact Option.isSome_iff_exists.1 hsome
    · cases h
  · cases h

theorem request_inj (hc : ofCredentials c = s) (hd : ofCredentials d = s) :
    s.request c = s.request d ↔ s.Agree c d := by
  cases s with
  | v2Token =>
    obtain ⟨token, hc⟩ := exists_adminToken hc
    obtain ⟨token', hd⟩ := exists_adminToken hd
    simp [request, Agree, hc, hd]
  | v2Password => simp [request, Agree]
  | v3Password =>
    constructor
    · intro h
      simp only [request, Json.object.injEq, List.cons.injEq, Prod.mk.injEq, Json.string.injEq,
        true_and, and_true] at h
      obtain ⟨⟨hdomain, husername, hpassword⟩, hproject, hprojectDomain⟩ := h
      exact ⟨husername, hpassword, hdomain, hproject, hprojectDomain⟩
    · rintro ⟨husername, hpassword, hdomain, hproject, hprojectDomain⟩
      simp only [request, husername, hpassword, hdomain, hproject, hprojectDomain]

open Json in
/-- The request for a token can always be written, and its text is read back as the tree that the
identity service documents for the way the credentials call for: an admin token, a user of a tenant, or
a user of a domain with a project of another, each text of the credentials unchanged in its own place
and nothing else. Credentials that call for the same way make the same text exactly if they agree on
what that way uses. -/
theorem body_holds_credentials (c : Credentials) :
    let s := ofCredentials c
    (∀ token, c.protocol = .v2 → c.adminToken = some token → token ≠ "" →
      Json.parse (s.body c) = .ok (.object [("auth", .object [("token", .object [
        ("id", .string token)])])])) ∧
    (c.protocol = .v2 → (∀ token, c.adminToken = some token → token = "") →
      Json.parse (s.body c) = .ok (.object [("auth", .object [
        ("tenantName", .string c.tenantName),
        ("passwordCredentials", .object [
          ("username", .string c.username), ("password", .string c.password)])])])) ∧
    (c.protocol = .v3 →
      Json.parse (s.body c) = .ok (.object [("auth", .object [
        ("identity", .object [
          ("methods", .array [.string "password"]),
          ("password", .object [("user", .object [
            ("domain", .object [("name", .string c.domainName)]),
            ("name", .string c.username),
            ("password", .string c.password)])])]),
        ("scope", .object [("project", .object [
          ("name", .string c.projectName),
          ("domain", .object [("name", .string c.projectDomainName)])])])])])) ∧
    (∀ d, ofCredentials d = s → (s.body c = s.body d ↔ s.Agree c d)) ∧
    (∀ (a : Authenticator) (w : World) (reason : String), a.credentials = c →
      (a.authenticate w).1 ≠ .error (.marshal reason)) := by
  intro s
  refine ⟨fun token hv2 htoken hne => ?_, fun hv2 hnone => ?_, fun hv3 => ?_, fun d hd => ?_,
    fun a w reason _ h => ?_⟩
  · have heffective : c.effectiveAdminToken = some token := by
      simp [Credentials.effectiveAdminToken, htoken, hne]
    have hs : s = v2Token := by simp [s, ofCredentials, hv2, heffective]
    rw [parse_body, hs, request, heffective]
    rfl
  · have heffective : c.effectiveAdminToken = none := by
      rw [Credentials.effectiveAdminToken, Option.filter_eq_none_iff]
      simpa using hnone
    have hs : s = v2Password := by simp [s, ofCredentials, hv2, heffective]
    rw [parse_body, hs, request]
  · have hs : s = v3Password := by simp [s, ofCredentials, hv3]
    rw [parse_body, hs, request]
  · rw [body, body, Json.render_inj (s.request_numberless c) (s.request_numberless d)]
    exact request_inj rfl hd
  · rw [Authenticator.authenticate_outcome] at h
    have hkind := kind_of_conclude h
    simp [AuthError.kind] at hkind

end Strategy

end TokenKeeper
