import TokenKeeper.Proofs.Validity

/-!
# The rules of a configuration

There are seven rules, and each can be broken whatever becomes of the others (`Rule.IsBroken`). An issue
is what is told of one broken rule (`Rule.issue`), so the check of a section tells of the broken ones
among its own rules, and the check of a configuration of all, each once and in order
(`ServiceConfig.issues_eq_told`).
-/

namespace TokenKeeper

/-- What a configuration has to satisfy: a level that is known, a time limit that is not zero, a url of
the web, the texts that an exchange needs, and a certificate with its key. -/
inductive Rule
  | level
  | timeout
  | url
  | username
  | password
  | projectName
  | pair
deriving DecidableEq

/-- Without an admin token v2 needs a password too. -/
def Credentials.NeedsPassword (c : Credentials) : Prop :=
  c.protocol = .v3 ∨ c.adminToken = none ∨ c.adminToken = some ""

instance (c : Credentials) : Decidable c.NeedsPassword :=
  inferInstanceAs (Decidable (_ ∨ _))

theorem Credentials.needsPassword_iff {c : Credentials} :
    c.NeedsPassword ↔ c.protocol = .v3 ∨ c.effectiveAdminToken = none := by
  unfold NeedsPassword effectiveAdminToken
  cases c.adminToken with
  | none => simp
  | some token => simp

instance (t : TlsFiles) : Decidable t.IsHalved :=
  inferInstanceAs (Decidable (_ ≠ _))

/-- The rule that an issue is about. -/
def Issue.rule : Issue → Rule
  | unknownLevel _ => .level
  | zeroTimeout => .timeout
  | emptyUrl | urlScheme _ => .url
  | missingForPassword field | missingForProject field =>
    if field = "username" then .username else if field = "password" then .password else .projectName
  | certificateWithoutKey | keyWithoutCertificate => .pair

namespace Rule
variable {c : ServiceConfig} {r : Rule}

def all : List Rule := [level, timeout, url, username, password, projectName, pair]

theorem mem_all (r : Rule) : r ∈ all := by
  cases r <;> decide

def IsBroken (c : ServiceConfig) : Rule → Prop
  | level => ∃ l ∈ c.settings.logging, String.ofList (l.level.toList.map Char.toLower) ∉ logLevels
  | timeout => c.timeoutMs = some 0
  | url => Text.trimBlank c.identity.authUrl = "" ∨
      ¬ ((Text.trimBlank c.identity.authUrl).startsWith "http://" = true ∨
        (Text.trimBlank c.identity.authUrl).startsWith "https://" = true)
  | username => c.identity.NeedsPassword ∧ c.identity.username = ""
  | password => c.identity.NeedsPassword ∧ c.identity.password = ""
  | projectName => c.identity.protocol = .v3 ∧ c.identity.projectName = ""
  | pair => ∃ tls ∈ c.tls, tls.files.insecure = false ∧ tls.files.IsHalved

instance (c : ServiceConfig) : DecidablePred (IsBroken c)
  | level => inferInstanceAs (Decidable (∃ l ∈ c.settings.logging, _ ∉ logLevels))
  | timeout => inferInstanceAs (Decidable (_ = _))
  | url => inferInstanceAs (Decidable (_ ∨ _))
  | username | password | projectName => inferInstanceAs (Decidable (_ ∧ _))
  | pair => inferInstanceAs (Decidable (∃ tls ∈ c.tls, _ ∧ _))

/-- How a text that is missing is told of. -/
def missing (c : ServiceConfig) (field : String) : Issue :=
  match c.identity.protocol with
  | .v2 => .missingForPassword field
  | .v3 => .missingForProject field

/-- What is told of a broken rule. -/
def issue (c : ServiceConfig) : Rule → Issue
  | level => .unknownLevel c.logSettings.level
  | timeout => .zeroTimeout
  | url =>
    let url := Text.trimBlank c.identity.authUrl
    if url = "" then .emptyUrl else .urlScheme url
  | username => missing c "username"
  | password => missing c "password"
  | projectName => missing c "project_name"
  | pair =>
    if (c.tls.bind fun tls => tls.files.certFile).isSome then .certificateWithoutKey
    else .keyWithoutCertificate

/-- What is told of the broken ones among the rules. -/
def told (c : ServiceConfig) (rules : List Rule) : List Issue :=
  (rules.filter fun r => r.IsBroken c).map (issue c)

theorem told_append (c : ServiceConfig) (before after : List Rule) :
    told c (before ++ after) = told c before ++ told c after := by
  unfold told
  rw [List.filter_append, List.map_append]

/-- A rule by itself. -/
theorem told_singleton {issues : List Issue} (hbroken : r.IsBroken c → issues = [r.issue c])
    (hkept : ¬ r.IsBroken c → issues = []) : issues = told c [r] := by
  unfold told
  by_cases h : r.IsBroken c
  · rw [hbroken h, List.filter_cons_of_pos (by simpa using h), List.filter_nil, List.map_singleton]
  · rw [hkept h, List.filter_cons_of_neg (by simpa using h), List.filter_nil, List.map_nil]

theorem told_of_kept (h : ¬ r.IsBroken c) : told c [r] = [] :=
  (told_singleton (fun hbroken => absurd hbroken h) fun _ => rfl).symm

theorem unless_eq_told {holds : Bool} (h : r.IsBroken c ↔ holds = false) :
    Issue.unless holds (r.issue c) = told c [r] := by
  refine told_singleton (fun hbroken => ?_) fun hkept => ?_
  · rw [h.1 hbroken]
    rfl
  · rw [h, Bool.not_eq_false] at hkept
    rw [hkept]
    rfl

/-- A rule that a text is there which is needed. -/
theorem needed_eq_told {needed : Prop} {text : String} (h : r.IsBroken c ↔ needed ∧ text = "")
    (hneeded : needed) : Issue.unless (!text.isEmpty) (r.issue c) = told c [r] := by
  refine unless_eq_told ?_
  rw [h, and_iff_right hneeded, Bool.not_eq_false', String.isEmpty_iff]

theorem missing_of_v2 (h : c.identity.protocol = .v2) : missing c = .missingForPassword := by
  unfold missing
  rw [h]

theorem missing_of_v3 (h : c.identity.protocol = .v3) : missing c = .missingForProject := by
  unfold missing
  rw [h]

theorem rule_issue (c : ServiceConfig) (r : Rule) : (r.issue c).rule = r := by
  have hmissing (field : String) : (missing c field).rule = (Issue.missingForProject field).rule := by
    unfold missing
    split <;> rfl
  cases r with
  | level | timeout => rfl
  | username | password | projectName => exact hmissing _
  | url | pair =>
    unfold issue
    dsimp only
    split <;> rfl

end Rule

namespace ServiceConfig
variable {c : ServiceConfig}

theorem settings_issues_eq_told (c : ServiceConfig) :
    c.settings.issues = Rule.told c [.level, .timeout] := by
  rw [show [Rule.level, .timeout] = [.level] ++ [.timeout] from rfl, Rule.told_append]
  unfold Settings.issues
  congr 1
  · cases hlogging : c.settings.logging with
    | none =>
      refine Rule.told_singleton (fun h => ?_) fun _ => rfl
      obtain ⟨l, hl, -⟩ := h
      cases hlogging.symm.trans hl
    | some l =>
      have hlevel : Rule.issue c .level = .unknownLevel l.level := by
        unfold Rule.issue logSettings
        rw [hlogging]
        rfl
      dsimp only
      rw [← hlevel]
      refine Rule.unless_eq_told ?_
      rw [← Bool.not_eq_true, isLogLevel_iff]
      unfold Rule.IsBroken
      rw [hlogging]
      exact ⟨fun ⟨_, hl, hlevel⟩ => Option.some.inj hl ▸ hlevel, fun hlevel => ⟨l, rfl, hlevel⟩⟩
  · cases htimeout : c.settings.http.bind HttpSettings.timeoutMs with
    | none =>
      refine Rule.told_singleton (fun h => ?_) fun _ => rfl
      cases htimeout.symm.trans h
    | some ms =>
      refine Rule.unless_eq_told (r := .timeout) ?_
      rw [Rule.IsBroken, timeoutMs, htimeout, Option.some.injEq, bne_eq_false_iff_eq]

theorem urlIssues_eq_told (c : ServiceConfig) : c.identity.urlIssues = Rule.told c [.url] := by
  unfold Credentials.urlIssues
  dsimp only
  by_cases hempty : Text.trimBlank c.identity.authUrl = ""
  · rw [if_pos (String.isEmpty_iff.2 hempty)]
    refine Rule.told_singleton (fun _ => ?_) fun h => absurd (.inl hempty) h
    rw [Rule.issue, if_pos hempty]
  · have hissue : Rule.issue c .url = .urlScheme (Text.trimBlank c.identity.authUrl) := by
      rw [Rule.issue, if_neg hempty]
    rw [if_neg (mt String.isEmpty_iff.1 hempty), ← hissue]
    refine Rule.unless_eq_told ?_
    rw [Rule.IsBroken, or_iff_right hempty, ← Bool.or_eq_true, Bool.not_eq_true]

theorem inputIssues_eq_told (c : ServiceConfig) :
    c.identity.inputIssues = Rule.told c [.username, .password, .projectName] := by
  rw [show [Rule.username, .password, .projectName] =
      [.username] ++ [.password] ++ [.projectName] from rfl,
    Rule.told_append, Rule.told_append]
  unfold Credentials.inputIssues
  cases hprotocol : c.identity.protocol with
  | v2 =>
    have hproject : Rule.told c [.projectName] = [] := by
      refine Rule.told_of_kept fun h => ?_
      cases hprotocol.symm.trans h.1
    rw [hproject, List.append_nil]
    dsimp only
    split
    · next htoken =>
      have hkept : ¬ c.identity.NeedsPassword := by
        rw [Credentials.needsPassword_iff, hprotocol]
        rintro (h | h)
        · cases h
        · rw [h] at htoken
          cases htoken
      rw [Rule.told_of_kept (r := .username) fun h => hkept h.1,
        Rule.told_of_kept (r := .password) fun h => hkept h.1, List.append_nil]
    · next htoken =>
      have hneeds : c.identity.NeedsPassword :=
        Credentials.needsPassword_iff.2 (.inr (by simpa using htoken))
      rw [← Rule.missing_of_v2 hprotocol, ← Rule.needed_eq_told (r := .username) Iff.rfl hneeds,
        ← Rule.needed_eq_told (r := .password) Iff.rfl hneeds]
      rfl
  | v3 =>
    have hneeds : c.identity.NeedsPassword := .inl hprotocol
    dsimp only
    rw [← Rule.missing_of_v3 hprotocol, ← Rule.needed_eq_told (r := .username) Iff.rfl hneeds,
      ← Rule.needed_eq_told (r := .password) Iff.rfl hneeds,
      ← Rule.needed_eq_told (r := .projectName) Iff.rfl hprotocol]
    rfl

theorem tls_issues_eq_told (c : ServiceConfig) :
    (c.tls.map TlsSection.issues).getD [] = Rule.told c [.pair] := by
  cases htls : c.tls with
  | none =>
    refine Rule.told_singleton (fun h => ?_) fun _ => rfl
    obtain ⟨tls, hsome, -⟩ := h
    cases htls.symm.trans hsome
  | some tls =>
    have hbroken : Rule.IsBroken c .pair ↔ tls.files.insecure = false ∧ tls.files.IsHalved := by
      rw [Rule.IsBroken, htls]
      exact ⟨fun ⟨_, h, hpair⟩ => Option.some.inj h ▸ hpair, fun h => ⟨tls, rfl, h⟩⟩
    have hissue : Rule.issue c .pair =
        if tls.files.certFile.isSome then .certificateWithoutKey else .keyWithoutCertificate := by
      rw [Rule.issue, htls]
      rfl
    refine Rule.told_singleton (fun h => ?_) fun h => ?_
    · obtain ⟨hverified, hhalved⟩ := hbroken.1 h
      rw [hissue]
      unfold TlsFiles.IsHalved at hhalved
      show TlsSection.issues tls = _
      unfold TlsSection.issues
      rw [hverified]
      cases hcert : tls.files.certFile <;> cases hkey : tls.files.keyFile <;> simp_all
    · show TlsSection.issues tls = []
      rw [TlsSection.issues_eq_nil_iff]
      exact fun hverified hhalved => h (hbroken.2 ⟨hverified, hhalved⟩)

/-- All that is told of a configuration is one issue for each broken rule. -/
theorem issues_eq_told (c : ServiceConfig) : c.issues = Rule.told c Rule.all := by
  unfold issues Credentials.issues
  rw [settings_issues_eq_told, urlIssues_eq_told, inputIssues_eq_told, tls_issues_eq_told,
    ← Rule.told_append, ← Rule.told_append, ← Rule.told_append]
  rfl

end ServiceConfig

end TokenKeeper
