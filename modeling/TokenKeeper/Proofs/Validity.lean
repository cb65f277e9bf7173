import TokenKeeper.Config.Load
import TokenKeeper.Proofs.Resolution

/-!
# What a valid configuration has

A section without issues says something of its own: a level and a time limit that count, the texts
that the chosen way to authenticate cannot do without, a certificate that has its key. A text holds a
valid configuration exactly if the configuration it spells has none of the issues
(`ServiceConfig.parse_eq_ok_iff`).
-/

namespace TokenKeeper

theorem Issue.unless_eq_nil_iff {holds : Bool} {i : Issue} :
    Issue.unless holds i = [] ↔ holds = true := by
  cases holds <;> simp [Issue.unless]

theorem isLogLevel_iff {level : String} :
    isLogLevel level = true ↔ String.ofList (level.toList.map Char.toLower) ∈ logLevels :=
  List.contains_iff_mem

theorem isAlpha_of_toLower {c : Char} (h : c.toLower.isAlpha = true) : c.isAlpha = true := by
  unfold Char.toLower at h
  split at h
  · next hc =>
    have hupper : c.isUpper = true := decide_eq_true hc
    exact Bool.or_eq_true_iff.2 (.inl hupper)
  · exact h

theorem isAlpha_of_isLogLevel {level : String} (h : isLogLevel level = true) {c : Char}
    (hc : c ∈ level.toList) : c.isAlpha = true := by
  have hlevels : (logLevels.all fun l => l.toList.all Char.isAlpha) = true := by decide
  have hletters := List.all_eq_true.1 hlevels _ (isLogLevel_iff.1 h)
  refine isAlpha_of_toLower (List.all_eq_true.1 hletters _ ?_)
  rw [String.toList_ofList]
  exact List.mem_map_of_mem hc

theorem Settings.issues_eq_nil_iff {s : Settings} :
    s.issues = [] ↔ (∀ l, s.logging = some l → isLogLevel l.level = true) ∧
      ∀ ms, s.http.bind HttpSettings.timeoutMs = some ms → ms ≠ 0 := by
  unfold issues
  rw [List.append_eq_nil_iff]
  refine and_congr ?_ ?_
  · cases s.logging <;> simp [Issue.unless_eq_nil_iff]
  · cases s.http.bind HttpSettings.timeoutMs <;> simp [Issue.unless_eq_nil_iff]

/-- The texts of the credentials that an exchange cannot do without. -/
def Strategy.inputs (c : Credentials) : Strategy → List String
  | v2Token => [c.effectiveAdminToken.getD ""]
  | v2Password => [c.username, c.password]
  | v3Password => [c.username, c.password, c.projectName]

theorem Credentials.ne_empty_of_effectiveAdminToken {c : Credentials} {t : String}
    (h : c.effectiveAdminToken = some t) : c.adminToken = some t ∧ t ≠ "" := by
  obtain ⟨htoken, hfull⟩ := Option.filter_eq_some_iff.1 h
  exact ⟨htoken, by simpa using hfull⟩

/-- The credentials have no issue exactly if none of the texts is empty that an exchange needs. -/
theorem Credentials.inputIssues_eq_nil_iff {c : Credentials} :
    c.inputIssues = [] ↔ ∀ input ∈ (Strategy.ofCredentials c).inputs c, input ≠ "" := by
  unfold inputIssues Strategy.ofCredentials
  cases c.protocol with
  | v2 =>
    cases htoken : c.effectiveAdminToken with
    | none => simp [Strategy.inputs, Issue.unless_eq_nil_iff]
    | some t => simp [Strategy.inputs, htoken, (ne_empty_of_effectiveAdminToken htoken).2]
  | v3 => simp [Strategy.inputs, Issue.unless_eq_nil_iff]

theorem TlsSection.issues_eq_nil_iff {t : TlsSection} :
    t.issues = [] ↔ (t.files.insecure = false → ¬ t.files.IsHalved) := by
  unfold issues TlsFiles.IsHalved
  cases t.files.insecure with
  | true => simp
  | false => cases t.files.certFile <;> cases t.files.keyFile <;> simp

namespace ServiceConfig

theorem issues_eq_nil_iff {c : ServiceConfig} :
    c.issues = [] ↔ c.settings.issues = [] ∧
      (c.identity.urlIssues = [] ∧ c.identity.inputIssues = []) ∧
      ∀ tls, c.tls = some tls → tls.issues = [] := by
  unfold issues Credentials.issues
  cases c.tls <;> simp [and_assoc]

theorem parse_eq_ok_iff {text : String} {config : ServiceConfig} :
    parse text = .ok config ↔
      ∃ c, ofYaml text = .ok c ∧ config = c.withLogging ∧ config.issues = [] := by
  unfold parse
  cases ofYaml text with
  | error u => simp
  | ok c =>
    simp only [Except.ok.injEq, exists_eq_left']
    unfold checked
    constructor
    · intro h
      split at h
      · next hissues =>
        cases h
        exact ⟨rfl, hissues⟩
      · cases h
    · rintro ⟨rfl, hissues⟩
      rw [hissues]

theorem urlIssues_of_parse {text : String} {config : ServiceConfig}
    (h : parse text = .ok config) : config.identity.urlIssues = [] := by
  obtain ⟨_, -, -, hissues⟩ := parse_eq_ok_iff.1 h
  exact (issues_eq_nil_iff.1 hissues).2.1.1

end ServiceConfig

end TokenKeeper
