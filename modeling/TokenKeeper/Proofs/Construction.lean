import TokenKeeper.Proofs.Entries
import TokenKeeper.Proofs.Runs
import TokenKeeper.Proofs.Validity

/-!
# The client of a configuration, made by hand

A client can be made from a configuration, or by hand: from credentials and a time limit, and then by
one call with the paths of its TLS material. The two meet (`Client.ofConfig_made_by_calls`): the text of
the configuration says what the call is given, and if there is a call at all.
-/

namespace TokenKeeper
open Yaml

namespace ServiceConfig

theorem tls_of_parse {text : String} {config : ServiceConfig} (h : parse text = .ok config) :
    config.tls = (tlsNode? (.ofText text.toList)).map (TlsSection.ofNode (.ofText text.toList)) := by
  obtain ⟨c, hc, rfl, -⟩ := parse_eq_ok_iff.1 h
  exact of_read_root (P := fun c => c.tls = _) (read_yields_tls _ _ _) hc

/-- The calls that a client made by hand needs to follow the TLS section of a text. -/
def tlsCalls (d : Document) : List Operation :=
  match tlsNode? d with
  | some n => [.addEncryption (.ofPaths (d.textAt "ca_file" n) (d.textAt "key_file" n)
      (d.textAt "cert_file" n) (d.flagAt "insecure" false n))]
  | none => []

/-- Whether v3 exchanges run unverified by the TLS section of a text. -/
def forces (d : Document) : Bool :=
  match tlsNode? d with
  | some n => d.flagAt "force_insecure_v3" true n
  | none => true

theorem forceInsecureV3_of_parse {text : String} {config : ServiceConfig}
    (h : parse text = .ok config) : config.forceInsecureV3 = forces (.ofText text.toList) := by
  unfold forceInsecureV3 forces
  rw [tls_of_parse h]
  cases tlsNode? (.ofText text.toList) <;> rfl

end ServiceConfig

theorem Session.run_single (s : Session) (around : Surroundings) (o : Operation) :
    (s.run [(around, o)]).1.map View.outcome = [(s.step around o).1] ∧
      (s.run [(around, o)]).2 = (s.step around o).2 := ⟨rfl, rfl⟩

namespace Client

/-- A client without a token, made by hand. -/
def made (credentials : Credentials) (timeoutMs : Option Nat) (forceInsecureV3 : Bool) : Client :=
  ⟨⟨credentials, .new credentials.authUrl timeoutMs, forceInsecureV3⟩, none⟩

/-- The client has what the configuration says. Its address and its policy change with a TLS section,
and only then. -/
structure Follows (c : Client) (files : Files) (config : ServiceConfig) : Prop where
  credentials : c.authenticator.credentials = config.identity
  forceInsecureV3 : c.authenticator.forceInsecureV3 = config.forceInsecureV3
  timeout : c.transport.timeoutMs = config.timeoutMs
  limit : c.transport.client.timeoutMs = config.timeoutMs
  cache : c.cache = none
  plain : config.tls = none →
    c.transport.authUrl = config.identity.authUrl ∧ c.transport.policy = .default
  secured : ∀ tls, config.tls = some tls →
    c.transport.authUrl = secureScheme config.identity.authUrl ∧
      TlsPolicy.resolve files tls.files = .ok c.transport.policy

variable {files : Files} {config : ServiceConfig} {c : Client}

theorem ofConfig_of_none (htls : config.tls = none) :
    ofConfig files config = .ok (made config.identity config.timeoutMs config.forceInsecureV3) := by
  unfold ofConfig
  rw [htls]
  rfl

theorem step_addEncryption_eq {tls : TlsSection} (htls : config.tls = some tls) (files : Files)
    (kind : ClientKind) (w : World) (now : Time.Instant) :
    let hand : Session := ⟨kind, made config.identity config.timeoutMs config.forceInsecureV3, w⟩
    let world := w.log (ofConfigRecords files config)
    hand.step ⟨files, now⟩ (.addEncryption tls.files) =
      match ofConfig files config with
      | .error e => (.done (.error e), { hand with world })
      | .ok c => (.done (.ok ()), ⟨kind, c, world⟩) := by
  intro hand world
  have hworld : world = w.log (hand.client.transport.configureRecords files tls.files) := by
    simp only [world, ofConfigRecords, htls]
    rfl
  have hconfig : ofConfig files config = hand.client.addEncryption files tls.files := by
    simp only [ofConfig, htls]
    rfl
  rw [hworld, hconfig]
  unfold addEncryption
  cases ht : hand.client.transport.configure files tls.files with
  | error e => exact Session.step_addEncryption_error ht
  | ok t => exact Session.step_addEncryption_ok ht

theorem follows_of_ofConfig (h : ofConfig files config = .ok c) : c.Follows files config := by
  cases htls : config.tls with
  | none =>
    rw [ofConfig_of_none htls] at h
    cases h
    exact ⟨rfl, rfl, rfl, rfl, rfl, fun _ => ⟨rfl, rfl⟩, fun tls h => nomatch htls.symm.trans h⟩
  | some tls =>
    obtain ⟨t, ht, rfl⟩ := (ofConfig_ok_iff htls).1 h
    obtain ⟨policy, client, hpolicy, hclient, rfl⟩ := Transport.configure_ok_iff.1 ht
    cases TlsPolicy.client_eq_of_ok hclient
    exact {
      credentials := rfl
      forceInsecureV3 := rfl
      timeout := rfl
      limit := rfl
      cache := rfl
      plain := fun hnone => nomatch htls.symm.trans hnone
      secured := by
        intro tls' hsome
        rw [htls] at hsome
        cases hsome
        exact ⟨rfl, hpolicy⟩ }

/-- The client of a configuration is the one that calls make of a client made by hand. -/
theorem ofConfig_made_by_calls {text : String} (h : ServiceConfig.parse text = .ok config)
    (files : Files) (kind : ClientKind) (w : World) (now : Time.Instant) :
    let d := Document.ofText text.toList
    let hand : Session :=
      ⟨kind, made config.identity config.timeoutMs (ServiceConfig.forces d), w⟩
    let calls := (ServiceConfig.tlsCalls d).map fun o => ((⟨files, now⟩ : Surroundings), o)
    (ServiceConfig.tlsNode? d = none → ofConfig files config = .ok hand.client) ∧
    match ofConfig files config with
    | .error e => (hand.run calls).1.map Session.View.outcome = [.done (.error e)]
    | .ok c =>
      let built : Session := ⟨kind, c, w.log (ofConfigRecords files config)⟩
      (hand.run calls).1.map Session.View.outcome = calls.map (fun _ => .done (.ok ())) ∧
        (hand.run calls).2 = built ∧ c.Follows files config ∧
        ∀ steps, hand.run (calls ++ steps) =
          ((hand.run calls).1 ++ (built.run steps).1, (built.run steps).2) := by
  intro d hand calls
  have htls := ServiceConfig.tls_of_parse h
  have hforce := ServiceConfig.forceInsecureV3_of_parse h
  cases hnode : ServiceConfig.tlsNode? d with
  | none =>
    have hnone : config.tls = none := by rw [htls, hnode, Option.map_none]
    have hcalls : calls = [] := by simp only [calls, ServiceConfig.tlsCalls, hnode, List.map_nil]
    have hconfig : ofConfig files config = _ := ofConfig_of_none hnone
    have hrecords : ofConfigRecords files config = [] := by rw [ofConfigRecords, hnone]
    have hhand : made config.identity config.timeoutMs config.forceInsecureV3 = hand.client := by
      rw [hforce]
    rw [hcalls, hrecords, World.log_nil, hconfig]
    exact ⟨fun _ => by rw [hhand], rfl, by rw [hhand]; rfl, follows_of_ofConfig hconfig,
      fun _ => by rw [hhand]; rfl⟩
  | some n =>
    have hsome : config.tls = some (TlsSection.ofNode d n) := by rw [htls, hnode, Option.map_some]
    have hcalls : calls = [(⟨files, now⟩, .addEncryption (TlsSection.ofNode d n).files)] := by
      simp only [calls, ServiceConfig.tlsCalls, hnode, List.map_cons, List.map_nil]
      rfl
    have hstep := step_addEncryption_eq hsome files kind w now
    have hrun := hand.run_single ⟨files, now⟩ (.addEncryption (TlsSection.ofNode d n).files)
    rw [hforce] at hstep
    rw [hstep, ← hcalls] at hrun
    obtain ⟨houtcome, hafter⟩ := hrun
    refine ⟨fun hnone => absurd hnone (Option.some_ne_none _), ?_⟩
    rw [hcalls, List.map_cons, List.map_nil, ← hcalls, houtcome]
    cases hconfig : ofConfig files config with
    | error e => rfl
    | ok c =>
      rw [hconfig] at hafter
      refine ⟨rfl, hafter, follows_of_ofConfig hconfig, fun steps => ?_⟩
      rw [hand.run_append_eq, hafter]

/-- A TLS section without a file: one path is null, one is empty, and one is left out. -/
def namelessText : String :=
  "settings: \x7bhttp: \x7btimeout_ms: 1500\x7d\x7d\n" ++
    "keystone: \x7bauth_url: 'http://k', username: u, password: p\x7d\n" ++
    "tls: \x7bca_file: null, cert_file: '', force_insecure_v3: false\x7d\n"

def namelessIdentity : Credentials := ⟨"http://k", .v2, "", "", "u", "p", none, "", ""⟩

def namelessConfig : ServiceConfig where
  settings := ⟨some .default, some ⟨some 1500⟩, true⟩
  identity := namelessIdentity
  tls := some ⟨⟨none, none, none, false⟩, false⟩

/-- The client goes over TLS, as after a call with three empty paths. -/
theorem ofConfig_made_by_calls_of_nameless :
    ServiceConfig.parse namelessText = .ok namelessConfig ∧
      ∃ c, ofConfig [] namelessConfig = .ok c ∧ c.transport.authUrl = "https://k" ∧
        c.transport.client.timeoutMs = some 1500 ∧
        (Session.run ⟨.keepalive, made namelessIdentity (some 1500) false, .start ⟨false, [], [], []⟩⟩
          [(⟨[], ⟨0, 0⟩⟩, .addEncryption (.ofPaths "" "" "" false))]).2 =
          ⟨.keepalive, c, (World.start ⟨false, [], [], []⟩).log (ofConfigRecords [] namelessConfig)⟩ := by
  have h : ServiceConfig.parse namelessText = .ok namelessConfig := ok_of_toOption (by decide +kernel)
  have hcalls : ServiceConfig.tlsCalls (.ofText namelessText.toList) =
      [.addEncryption (.ofPaths "" "" "" false)] := by decide +kernel
  have hforces : ServiceConfig.forces (.ofText namelessText.toList) = false :=
    (ServiceConfig.forceInsecureV3_of_parse h).symm
  obtain ⟨-, hmade⟩ := ofConfig_made_by_calls h [] .keepalive (.start ⟨false, [], [], []⟩) ⟨0, 0⟩
  rw [hcalls, hforces] at hmade
  obtain ⟨c, hc⟩ : ∃ c, ofConfig [] namelessConfig = .ok c := ⟨_, rfl⟩
  rw [hc] at hmade
  obtain ⟨-, hafter, hfollows, -⟩ := hmade
  refine ⟨h, c, hc, ?_, hfollows.limit, hafter⟩
  rw [(hfollows.secured _ rfl).1]
  decide +kernel

end Client

end TokenKeeper
