import TokenKeeper.Client.Basic
import TokenKeeper.Proofs.Outcome
import TokenKeeper.Proofs.Transport

/-!
# From TLS material to a client

Material that cannot be used is an error of its own (`AuthError.IsTls`), whatever the files hold and
wherever the fault shows: in reading a file, in its text, or in what is made of it. When none does,
the policy and the client present an identity if the files name a certificate together with its key,
and then the one of that certificate; a certificate or a key alone (`TlsFiles.IsHalved`) is dropped
with a warning.
-/

namespace TokenKeeper

/-- TLS material cannot be used. -/
def AuthError.IsTls (e : AuthError) : Prop := ∃ path reason, e = .tlsConfig path reason

/-- One of certificate and key is named without the other. -/
def TlsFiles.IsHalved (t : TlsFiles) : Prop := t.certFile.isSome ≠ t.keyFile.isSome

namespace TlsPolicy
variable {files : Files} {t : TlsFiles} {p : TlsPolicy}

theorem readFile_fails (files : Files) (path : String) :
    FailsOnly AuthError.IsTls (readFile files path) := by
  unfold readFile
  cases files.read path with
  | error f => exact .error ⟨path, f.message, rfl⟩
  | ok content => exact .ok content

theorem loadRoots_fails (files : Files) (path : String) :
    FailsOnly AuthError.IsTls (loadRoots files path) := by
  refine (readFile_fails files path).bind fun text => ?_
  split
  · exact .error ⟨path, unusable, rfl⟩
  · split
    · exact .error ⟨path, _, rfl⟩
    · exact .ok _

theorem loadIdentity_fails (files : Files) (certPath keyPath : String) :
    FailsOnly AuthError.IsTls (loadIdentity files certPath keyPath) := by
  refine (readFile_fails files certPath).bind fun certText => ?_
  refine (readFile_fails files keyPath).bind fun keyText => ?_
  split
  · exact .ok _
  · exact .error ⟨_, unusable, rfl⟩

theorem resolveRoots_fails (files : Files) (t : TlsFiles) :
    FailsOnly AuthError.IsTls (resolveRoots files t) := by
  unfold resolveRoots
  split
  · exact (loadRoots_fails files _).map some
  · exact .ok none

theorem resolveIdentity_fails (files : Files) (t : TlsFiles) :
    FailsOnly AuthError.IsTls (resolveIdentity files t) := by
  unfold resolveIdentity
  split
  · exact (loadIdentity_fails files _ _).map some
  · exact .ok none

theorem resolve_fails (files : Files) (t : TlsFiles) :
    FailsOnly AuthError.IsTls (resolve files t) := by
  unfold resolve
  split
  · exact .ok insecure
  · refine (resolveRoots_fails files t).bind fun roots => ?_
    refine (resolveIdentity_fails files t).bind fun identity => ?_
    split <;> exact .ok _

theorem client_fails (p : TlsPolicy) (timeoutMs : Option Nat) :
    FailsOnly AuthError.IsTls (p.client timeoutMs) := by
  unfold client
  dsimp only
  split
  · exact .ok _
  · exact .error ⟨_, unusable, rfl⟩

theorem certPath_of_loadIdentity {certPath keyPath : String} {i : ClientIdentity}
    (h : loadIdentity files certPath keyPath = .ok i) : i.certPath = certPath := by
  obtain ⟨certText, -, h⟩ := bind_eq_ok_iff.1 h
  obtain ⟨keyText, -, h⟩ := bind_eq_ok_iff.1 h
  split at h
  · cases h; rfl
  · cases h

/-- Unless a certificate or a key stands alone, the identity is the one of the certificate that is
named, and there is none if none is. -/
theorem certFile_of_resolve (h : t.insecure = false) (hwhole : ¬ t.IsHalved)
    (hp : resolve files t = .ok p) : p.certFile = t.certFile := by
  obtain ⟨roots, identity, -, hidentity, rfl⟩ := (resolve_eq_ok_iff h).1 hp
  have hcert : identity.map ClientIdentity.certPath = t.certFile := by
    unfold resolveIdentity at hidentity
    split at hidentity
    · next cert key hc hk =>
      obtain ⟨i, hi, rfl⟩ := map_eq_ok_iff.1 hidentity
      rw [hc, Option.map_some, certPath_of_loadIdentity hi]
    · next hnone =>
      -- not both are named, and neither stands alone, so there is no certificate
      cases hidentity
      cases hc : t.certFile with
      | none => rfl
      | some cert =>
        cases hk : t.keyFile with
        | none => exact absurd (by simp [TlsFiles.IsHalved, hc, hk]) hwhole
        | some key => exact absurd hk (hnone cert key hc)
  rw [← hcert]
  cases roots <;> cases identity <;> rfl

theorem client_eq_of_ok {timeoutMs : Option Nat} {c : HttpClient} (h : p.client timeoutMs = .ok c) :
    c = ⟨!p.isInsecure, p.roots?.map TrustRoots.certificates, p.identity?, timeoutMs⟩ := by
  unfold client at h
  dsimp only at h
  split at h
  · cases h; rfl
  · cases h

theorem identity_of_client {timeoutMs : Option Nat} {c : HttpClient}
    (h : p.client timeoutMs = .ok c) : c.identity = p.identity? := by
  rw [client_eq_of_ok h]

end TlsPolicy

/-- A warning while a policy is resolved means that a certificate or a key stands alone. -/
theorem TlsFiles.isHalved_of_warning {files : Files} {t : TlsFiles} {r : LogRecord}
    (hr : r ∈ t.resolveRecords files) (hwarn : r.level = .warn) : t.IsHalved := by
  unfold resolveRecords at hr
  split at hr
  · cases hr
  split at hr
  · cases hr
  next roots _ =>
  rcases List.mem_append.1 hr with hr | hr
  · cases roots with
    | none => cases hr
    | some roots =>
      cases List.mem_singleton.1 hr
      cases hwarn
  · unfold identityRecords at hr
    split at hr
    · split at hr
      · cases List.mem_singleton.1 hr
        cases hwarn
      · cases hr
    · cases hr
    · next hboth hneither =>
      intro hsame
      cases hc : t.certFile with
      | none =>
        cases hk : t.keyFile with
        | none => exact hneither hc hk
        | some key => rw [hc, hk] at hsame; cases hsame
      | some cert =>
        cases hk : t.keyFile with
        | none => rw [hc, hk] at hsame; cases hsame
        | some key => exact hboth cert key hc hk

theorem Transport.configure_fails (files : Files) (t : Transport) (tls : TlsFiles) :
    FailsOnly AuthError.IsTls (t.configure files tls) :=
  (TlsPolicy.resolve_fails files tls).bind fun p =>
    (p.client_fails t.timeoutMs).bind fun _ => .ok _

theorem Client.ofConfig_fails (files : Files) (config : ServiceConfig) :
    FailsOnly AuthError.IsTls (ofConfig files config) := by
  unfold ofConfig
  dsimp only
  split
  · exact (Transport.configure_fails files _ _).map _
  · exact .ok _

end TokenKeeper
