import TokenKeeper.Proofs.Outcome
import TokenKeeper.Transport

/-!
# The transport's parts move together

A transport is coherent when its client is the one its policy makes with its time limit. A new
transport is coherent, and both ways of changing one keep it so: each sets the client together with
the policy, and the time limit never changes. The address changes where a policy is configured, and
there alone.
-/

namespace TokenKeeper

theorem TlsPolicy.isInsecure_iff {p : TlsPolicy} : p.isInsecure = true ↔ p = .insecure := by
  cases p <;> simp [isInsecure]

/-- A policy that verifies is the roots and the identity that are named, and the default if neither
is. -/
theorem TlsPolicy.resolve_eq_ok_iff {files : Files} {t : TlsFiles} {p : TlsPolicy}
    (h : t.insecure = false) :
    resolve files t = .ok p ↔ ∃ roots identity, resolveRoots files t = .ok roots ∧
      resolveIdentity files t = .ok identity ∧
      p = if roots.isNone && identity.isNone then default else verified roots identity := by
  have hresolve : resolve files t = (resolveRoots files t).bind fun roots =>
      (resolveIdentity files t).bind fun identity =>
        .ok (if roots.isNone && identity.isNone then default else verified roots identity) := by
    unfold resolve
    rw [if_neg (by rw [h]; exact Bool.false_ne_true)]
    cases resolveRoots files t with
    | error e => rfl
    | ok roots =>
      cases resolveIdentity files t with
      | error e => rfl
      | ok identity =>
        simp only [bind, Except.bind, pure, Except.pure]
        split <;> rfl
  simp only [hresolve, bind_eq_ok_iff, Except.ok.injEq]
  exact ⟨fun ⟨roots, hroots, identity, hidentity, hp⟩ => ⟨roots, identity, hroots, hidentity, hp.symm⟩,
    fun ⟨roots, identity, hroots, hidentity, hp⟩ => ⟨roots, hroots, identity, hidentity, hp.symm⟩⟩

theorem TlsPolicy.resolve_insecure_iff {files : Files} {tls : TlsFiles} :
    resolve files tls = .ok .insecure ↔ tls.insecure = true := by
  cases h : tls.insecure with
  | true => simp [resolve, h]
  | false =>
    simp only [Bool.false_eq_true, iff_false]
    intro hp
    obtain ⟨roots, identity, -, -, hp⟩ := (resolve_eq_ok_iff h).1 hp
    split at hp <;> cases hp

/-- How requests are sent under a policy, within the time limit: unverified under the insecure one, by the
given roots and with the given identity under one that names them, and by the built-in roots else. -/
def HttpClient.under : TlsPolicy → Option Nat → HttpClient
  | .default, timeoutMs => ⟨true, none, none, timeoutMs⟩
  | .insecure, timeoutMs => ⟨false, none, none, timeoutMs⟩
  | .verified roots identity, timeoutMs =>
    ⟨true, roots.map TrustRoots.certificates, identity, timeoutMs⟩

theorem TlsPolicy.client_eq_under {p : TlsPolicy} {timeoutMs : Option Nat} {client : HttpClient}
    (h : p.client timeoutMs = .ok client) : client = .under p timeoutMs := by
  unfold TlsPolicy.client at h
  dsimp only at h
  split at h
  · cases p <;> exact (Except.ok.inj h).symm
  · cases h

namespace Transport
variable {t after : Transport}

/-- The client does what the policy says, within the time limit. -/
def Coherent (t : Transport) : Prop := t.policy.client t.timeoutMs = .ok t.client

theorem new_coherent (authUrl : String) (timeoutMs : Option Nat) :
    (new authUrl timeoutMs).Coherent := rfl

/-- To configure is to resolve a policy, make its client, and bring the address to TLS. -/
theorem configure_ok_iff {files : Files} {tls : TlsFiles} :
    t.configure files tls = .ok after ↔
      ∃ policy client, TlsPolicy.resolve files tls = .ok policy ∧
        policy.client t.timeoutMs = .ok client ∧
        after = { t with client, policy, authUrl := secureScheme t.authUrl } := by
  unfold configure
  cases TlsPolicy.resolve files tls with
  | error _ => simp [bind, Except.bind]
  | ok policy =>
    cases hclient : policy.client t.timeoutMs with
    | error _ => simp [bind, Except.bind, hclient]
    | ok client => simp [bind, Except.bind, pure, Except.pure, hclient, eq_comm]

theorem configure_coherent {files : Files} {tls : TlsFiles} (h : t.configure files tls = .ok after) :
    after.Coherent := by
  obtain ⟨policy, client, -, hclient, rfl⟩ := configure_ok_iff.1 h
  exact hclient

theorem configure_timeoutMs {files : Files} {tls : TlsFiles} (h : t.configure files tls = .ok after) :
    after.timeoutMs = t.timeoutMs := by
  obtain ⟨_, _, -, -, rfl⟩ := configure_ok_iff.1 h
  rfl

theorem configure_authUrl {files : Files} {tls : TlsFiles} (h : t.configure files tls = .ok after) :
    after.authUrl = secureScheme t.authUrl := by
  obtain ⟨_, _, -, -, rfl⟩ := configure_ok_iff.1 h
  rfl

theorem forceInsecure_authUrl (t : Transport) : t.forceInsecure.authUrl = t.authUrl := by
  unfold forceInsecure; split <;> rfl

theorem forceInsecure_timeoutMs (t : Transport) : t.forceInsecure.timeoutMs = t.timeoutMs := by
  unfold forceInsecure; split <;> rfl

theorem forceInsecure_policy (t : Transport) : t.forceInsecure.policy = .insecure := by
  unfold forceInsecure
  split
  · next h => exact TlsPolicy.isInsecure_iff.1 h
  · rfl

theorem forceInsecure_coherent (h : t.Coherent) : t.forceInsecure.Coherent := by
  unfold forceInsecure
  split
  · exact h
  · rfl

/-- A coherent transport without verification sends requests without it. -/
theorem Coherent.client_of_insecure (h : t.Coherent) (hp : t.policy = .insecure) :
    t.client = .plain false t.timeoutMs := by
  unfold Coherent at h
  rw [hp] at h
  exact (Except.ok.inj h).symm

end Transport

end TokenKeeper
