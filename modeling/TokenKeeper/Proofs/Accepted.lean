import TokenKeeper.Proofs.Records
import TokenKeeper.Proofs.Runs
import TokenKeeper.Proofs.Validity

/-!
# Accepted configurations are usable

The check of a configuration, the reader of the TLS section, the choice of the way to authenticate
and the resolution of a policy each have a notion of their own of what is set. On accepted
configurations they agree (`ServiceConfig.IsUsable`): what the chosen way needs is there, no path is
an empty text, and no certificate or key is given that would not be used.
-/

namespace TokenKeeper
open Yaml

/-- No path is set and empty. -/
structure TlsFiles.IsNamed (t : TlsFiles) : Prop where
  caFile : t.caFile ≠ some ""
  keyFile : t.keyFile ≠ some ""
  certFile : t.certFile ≠ some ""

theorem TlsFiles.path?_ne_empty (s : String) : path? s ≠ some "" := by
  unfold path?
  split
  · exact fun h => nomatch h
  · next hs =>
    intro h
    rw [Option.some.inj h] at hs
    exact hs rfl

namespace TlsSection
variable {t t' : TlsFiles}

theorem path_ne_empty {found : Found} {v : Option String} (h : path found = .ok v) :
    v ≠ some "" := by
  unfold path at h
  split at h
  · cases h
    exact fun h => nomatch h
  · cases h
    exact TlsFiles.path?_ne_empty _
  · cases h

theorem isNamed_of_put {name : String} {put : Found → TlsFiles → Except Misfit TlsFiles}
    (hentry : entry? name = some put) {found : Found} (h : put found t = .ok t')
    (ht : t.IsNamed) : t'.IsNamed := by
  unfold entry? at hentry
  split at hentry
  · cases hentry
    obtain ⟨v, hv, rfl⟩ := map_eq_ok_iff.1 h
    exact { ht with caFile := path_ne_empty hv }
  · cases hentry
    obtain ⟨v, hv, rfl⟩ := map_eq_ok_iff.1 h
    exact { ht with keyFile := path_ne_empty hv }
  · cases hentry
    obtain ⟨v, hv, rfl⟩ := map_eq_ok_iff.1 h
    exact { ht with certFile := path_ne_empty hv }
  · cases hentry
    obtain ⟨v, -, rfl⟩ := map_eq_ok_iff.1 h
    exact { ht with }
  · cases hentry

theorem isNamed_of_gather {kept : List (List Char × Found)} {seen : List String}
    (h : gather kept seen t = .ok t') (ht : t.IsNamed) : t'.IsNamed := by
  induction kept generalizing seen t with
  | nil =>
    cases h
    exact ht
  | cons entry rest ih =>
    obtain ⟨name, found⟩ := entry
    unfold gather at h
    dsimp only at h
    split at h
    · exact ih h ht
    · next put hput =>
      split at h
      · cases h
      · obtain ⟨t₁, ht₁, hrest⟩ := bind_eq_ok_iff.1 h
        exact ih hrest (isNamed_of_put hput ht₁ ht)

theorem read_yields (p : Place) (n : Node) :
    Yields (fun s => s.files.IsNamed) (TlsSection.read p n) := by
  refine .andThen _ fun d => ?_
  split
  · next t ht =>
    refine .ret (isNamed_of_gather ht ⟨?_, ?_, ?_⟩) <;> exact fun h => nomatch h
  · exact p.refuse_yields _

end TlsSection

namespace ServiceConfig

/-- The paths of the TLS section, if there is one, are named. -/
def HasNamedPaths (c : ServiceConfig) : Prop := ∀ tls, c.tls = some tls → tls.files.IsNamed

theorem read_yields (p : Place) (n : Node) : Yields HasNamedPaths (ServiceConfig.read p n) := by
  refine p.readRecord_yields _ ?_ (fun p name n s => p.skipOther_yields name n s) ?_ n
  · intro f hf
    simp only [fields, List.mem_cons, List.not_mem_nil, or_false] at hf
    rcases hf with rfl | rfl | rfl
    · exact RecordField.of_keeps_any fun _ _ hs => hs
    · exact RecordField.of_keeps_any fun _ _ hs => hs
    · exact RecordField.of_keeps (fun p n => p.readOption_yields (TlsSection.read_yields p) n)
        fun _ _ _ ha => ha
  · exact fun _ h => nomatch h

theorem hasNamedPaths_of_parse {text : String} {config : ServiceConfig}
    (h : parse text = .ok config) : config.HasNamedPaths := by
  obtain ⟨c, hc, rfl, -⟩ := parse_eq_ok_iff.1 h
  have hnamed : c.HasNamedPaths := of_read read_yields hc
  exact hnamed

/-- The TLS section as a client follows it when it verifies its peer: neither a certificate nor a key
is dropped, and whatever the files are, the client presents an identity exactly if a certificate is
named, and then that one, or the material cannot be used. -/
structure Presents (config : ServiceConfig) (tls : TlsSection) : Prop where
  whole : ¬ tls.files.IsHalved
  silent : ∀ files, ∀ r ∈ tls.files.resolveRecords files, r.level ≠ .warn
  client : ∀ files,
    (∃ path reason, Client.ofConfig files config = .error (.tlsConfig path reason)) ∨
    ∃ c, Client.ofConfig files config = .ok c ∧
      (c.transport.client.identity.isSome = true ↔ tls.files.certFile.isSome = true) ∧
      c.transport.policy.certFile = tls.files.certFile

theorem presents_of_issues {config : ServiceConfig} {tls : TlsSection}
    (htls : config.tls = some tls) (hissues : tls.issues = [])
    (hverifies : tls.files.insecure = false) : config.Presents tls := by
  have hwhole := TlsSection.issues_eq_nil_iff.1 hissues hverifies
  refine ⟨hwhole, fun files r hr hwarn => hwhole (TlsFiles.isHalved_of_warning hr hwarn), ?_⟩
  intro files
  cases hc : Client.ofConfig files config with
  | error e =>
    obtain ⟨path, reason, rfl⟩ := Client.ofConfig_fails files config e hc
    exact .inl ⟨path, reason, rfl⟩
  | ok c =>
    obtain ⟨t, ht, rfl⟩ := (Client.ofConfig_ok_iff htls).1 hc
    obtain ⟨policy, client, hpolicy, hclient, rfl⟩ := Transport.configure_ok_iff.1 ht
    have hcert : policy.certFile = tls.files.certFile :=
      TlsPolicy.certFile_of_resolve hverifies hwhole hpolicy
    refine .inr ⟨_, rfl, ?_, hcert⟩
    change client.identity.isSome = true ↔ _
    rw [TlsPolicy.identity_of_client hclient, ← hcert, TlsPolicy.certFile, Option.isSome_map]

/-- The configuration can be used as it is: logging is settled, a time limit is not zero, no path is
empty, the chosen way to authenticate has its texts, and TLS material is not dropped. -/
structure IsUsable (config : ServiceConfig) : Prop where
  level : ∃ l, config.settings.logging = some l ∧
    String.ofList (l.level.toList.map Char.toLower) ∈ ["trace", "debug", "info", "warn", "error"] ∧
    ∀ c ∈ l.level.toList, c.isAlpha = true
  timeout : ∀ ms, config.timeoutMs = some ms → 0 < ms
  named : ∀ tls, config.tls = some tls → tls.files.IsNamed
  supplied : ∀ input ∈ (Strategy.ofCredentials config.identity).inputs config.identity, input ≠ ""
  presents : ∀ tls, config.tls = some tls → tls.files.insecure = false → config.Presents tls

/-- Every configuration that is accepted can be used as it is, whatever text it is from. -/
theorem isUsable_of_parse {text : String} {config : ServiceConfig}
    (h : parse text = .ok config) : config.IsUsable := by
  obtain ⟨c, -, hlogging, hissues⟩ := parse_eq_ok_iff.1 h
  obtain ⟨hsettings, ⟨-, hinputs⟩, htls⟩ := issues_eq_nil_iff.1 hissues
  obtain ⟨hlevel, htimeout⟩ := Settings.issues_eq_nil_iff.1 hsettings
  have hset : config.settings.logging = some c.logSettings := by rw [hlogging]; rfl
  have hknown := hlevel _ hset
  exact {
    level := ⟨_, hset, isLogLevel_iff.1 hknown, fun _ => isAlpha_of_isLogLevel hknown⟩
    timeout := fun ms hms => Nat.pos_of_ne_zero (htimeout ms hms)
    named := hasNamedPaths_of_parse h
    supplied := Credentials.inputIssues_eq_nil_iff.1 hinputs
    presents := fun tls hsome => presents_of_issues hsome (htls tls hsome) }

/-- A configuration with an admin token and a path that are empty texts. -/
def sparseText : String :=
  "keystone: \x7bauth_url: 'http://k', username: u, password: p, admin_token: ''\x7d\n" ++
    "tls: \x7bca_file: '', cert_file: c, key_file: k\x7d\n"

def sparseConfig : ServiceConfig where
  settings := ⟨some .default, none, true⟩
  identity := ⟨"http://k", .v2, "", "", "u", "p", some "", "", ""⟩
  tls := some ⟨⟨none, some "k", some "c", false⟩, true⟩

/-- The empty admin token counts as none, so that the password is what has to be there, and the empty
path names no file. -/
theorem isUsable_of_sparse : parse sparseText = .ok sparseConfig ∧ sparseConfig.IsUsable := by
  have h : parse sparseText = .ok sparseConfig := ok_of_toOption (by decide +kernel)
  exact ⟨h, isUsable_of_parse h⟩

end ServiceConfig

end TokenKeeper
