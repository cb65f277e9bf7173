import Mathlib.Data.List.Forall2
import TokenKeeper.Config.Calls
import TokenKeeper.Proofs.Rules

/-!
# What is told of configurations, and what is counted

How a call for a configuration ends does not depend on the metrics (`ConfigCall.Ends`), and the metrics
that it leaves behind depend on the end alone: one more configuration error if a text is no
configuration or a configuration not valid, and nothing otherwise (`ConfigCall.perform_ends`). Over any
run of calls the counter so grows by the number of those that were rejected.
-/

namespace TokenKeeper

theorem Metrics.countConfigErrors_countConfigErrors (m : Metrics) (n k : Nat) :
    (m.countConfigErrors n).countConfigErrors k = m.countConfigErrors (n + k) := by
  unfold countConfigErrors
  dsimp only
  rw [Nat.add_assoc]

/-- What a configuration is told: the sections in their order, and for each rule that is broken one
issue, whatever becomes of the other rules. -/
structure ServiceConfig.ToldOnce (c : ServiceConfig) : Prop where
  sections : c.issues =
    c.settings.issues ++ c.identity.issues ++ (c.tls.map TlsSection.issues).getD []
  rules : c.issues.map Issue.rule = Rule.all.filter (Rule.IsBroken c ·)
  issues : ∀ i ∈ c.issues, i = i.rule.issue c
  once : ∀ r, (c.issues.map Issue.rule).count r = if Rule.IsBroken c r then 1 else 0
  valid : ∀ m, (c.validate m).1.isOk = true ↔ ∀ r, ¬ Rule.IsBroken c r

namespace ServiceConfig
variable {c : ServiceConfig}

theorem map_rule_issues (c : ServiceConfig) :
    c.issues.map Issue.rule = Rule.all.filter (Rule.IsBroken c ·) := by
  have hrule : Issue.rule ∘ Rule.issue c = id := funext (Rule.rule_issue c)
  rw [issues_eq_told, Rule.told, List.map_map, hrule, List.map_id]

theorem issues_eq_nil_iff_kept : c.issues = [] ↔ ∀ r, ¬ Rule.IsBroken c r := by
  rw [← List.map_eq_nil_iff, map_rule_issues, List.filter_eq_nil_iff]
  constructor
  · intro h r hr
    exact h r (Rule.mem_all r) (decide_eq_true hr)
  · intro h r _ hr
    exact h r (of_decide_eq_true hr)

theorem toldOnce (c : ServiceConfig) : c.ToldOnce where
  sections := rfl
  rules := map_rule_issues c
  issues i hi := by
    rw [issues_eq_told, Rule.told] at hi
    obtain ⟨r, -, rfl⟩ := List.mem_map.1 hi
    rw [Rule.rule_issue]
  once r := by
    have hall : Rule.all.count r = 1 := by cases r <;> rfl
    rw [map_rule_issues]
    split
    · next hr =>
      rw [List.count_filter (by simpa using hr), hall]
    · next hr =>
      refine List.count_eq_zero.2 fun hmem => hr ?_
      simpa using (List.mem_filter.1 hmem).2
  valid m := by
    rw [← issues_eq_nil_iff_kept]
    unfold validate
    cases c.issues with
    | nil => exact iff_of_true rfl rfl
    | cons i issues =>
      exact iff_of_false (by simp [Except.isOk, Except.toBool]) (List.cons_ne_nil i issues)

/-- Counting does not change how a text is read. -/
theorem parseCounting_fst (text : String) (m : Metrics) : (parseCounting text m).1 = parse text := by
  unfold parseCounting parse
  cases ofYaml text with
  | error u => rfl
  | ok c =>
    dsimp only
    unfold validate checked
    cases c.withLogging.issues with
    | nil => rfl
    | cons i issues => rfl

theorem loadCounting_fst (files : Files) (env : Environment) (path : String) (m : Metrics) :
    (loadCounting files env path m).1 = load files env path := by
  unfold loadCounting load
  cases files.readText path with
  | error f => rfl
  | ok text => exact parseCounting_fst _ _

end ServiceConfig

namespace ConfigCall
variable {m : Metrics}

/-- The end of a call: no error, or the one it fails with. -/
inductive Ends : ConfigCall → Option ConfigError → Prop
  | unreadable {files : Files} {env : Environment} {path : String} {f : FileFault}
      (h : files.readText path = .error f) : Ends (load files env path) (some (.unreadable path f))
  | read {files : Files} {env : Environment} {path text : String} {e : Option ConfigError}
      (h : files.readText path = .ok text) (ends : Ends (parse (expand env text)) e) :
      Ends (load files env path) e
  | unread {text : String} {u : Yaml.Unread} (h : ServiceConfig.ofYaml text = .error u) :
      Ends (parse text) (some (.unread u))
  | decoded {text : String} {c : ServiceConfig} {e : Option ConfigError}
      (h : ServiceConfig.ofYaml text = .ok c) (ends : Ends (validate c.withLogging) e) :
      Ends (parse text) e
  | invalid {c : ServiceConfig} (h : c.issues ≠ []) : Ends (validate c) (some (.invalid c.issues))
  | valid {c : ServiceConfig} (h : c.issues = []) : Ends (validate c) none

/-- The call failed in reading the text or in the check, not in reading the file. -/
def isRejection : Option ConfigError → Bool
  | some (.unread _) | some (.invalid _) => true
  | some (.unreadable ..) | none => false

/-- The metrics after a call with that end. -/
def counted (m : Metrics) (e : Option ConfigError) : Metrics :=
  m.countConfigErrors (if isRejection e then 1 else 0)

/-- A call comes to an end, and the metrics are those of the end. -/
def EndsIn (call : ConfigCall) (m : Metrics) (result : Option ConfigError × Metrics) : Prop :=
  call.Ends result.1 ∧ result.2 = counted m result.1

theorem validate_endsIn (c : ServiceConfig) (m : Metrics) :
    (validate c).EndsIn m ((validate c).perform m) := by
  show (validate c).EndsIn m (perform.failure (c.validate m))
  unfold ServiceConfig.validate
  split
  · next h => exact ⟨.valid h, rfl⟩
  · next h => exact ⟨.invalid h, rfl⟩

theorem parse_endsIn (text : String) (m : Metrics) :
    (parse text).EndsIn m ((parse text).perform m) := by
  show (parse text).EndsIn m (perform.failure (ServiceConfig.parseCounting text m))
  unfold ServiceConfig.parseCounting
  split
  · next u h => exact ⟨.unread h, rfl⟩
  · next c h =>
    obtain ⟨hends, hm⟩ := validate_endsIn c.withLogging m
    rw [perform] at hends hm
    split
    · next m' hvalid =>
      rw [hvalid] at hends hm
      exact ⟨.decoded h hends, hm⟩
    · next e m' hvalid =>
      rw [hvalid] at hends hm
      exact ⟨.decoded h hends, hm⟩

theorem perform_endsIn (call : ConfigCall) (m : Metrics) : call.EndsIn m (call.perform m) := by
  cases call with
  | validate c => exact validate_endsIn c m
  | parse text => exact parse_endsIn text m
  | load files env path =>
    show (load files env path).EndsIn m
      (perform.failure (ServiceConfig.loadCounting files env path m))
    unfold ServiceConfig.loadCounting
    split
    · next text h =>
      obtain ⟨hends, hm⟩ := parse_endsIn (expand env text) m
      exact ⟨.read h hends, hm⟩
    · next f h => exact ⟨.unreadable h, rfl⟩

theorem run_cons (m : Metrics) (call : ConfigCall) (calls : List ConfigCall) :
    run m (call :: calls) = ((call.perform m).1 :: (run (call.perform m).2 calls).1,
      (run (call.perform m).2 calls).2) := rfl

theorem run_ends (calls : List ConfigCall) (m : Metrics) :
    List.Forall₂ Ends calls (run m calls).1 ∧
      (run m calls).2 = m.countConfigErrors ((run m calls).1.countP isRejection) := by
  induction calls generalizing m with
  | nil => exact ⟨.nil, rfl⟩
  | cons call calls ih =>
    obtain ⟨hends, hm⟩ := perform_endsIn call m
    obtain ⟨hrest, hcount⟩ := ih (call.perform m).2
    rw [run_cons]
    refine ⟨.cons hends hrest, ?_⟩
    calc (run (call.perform m).2 calls).2
        = (call.perform m).2.countConfigErrors ((run (call.perform m).2 calls).1.countP isRejection) :=
          hcount
      _ = (counted m (call.perform m).1).countConfigErrors
            ((run (call.perform m).2 calls).1.countP isRejection) := by rw [← hm]
      _ = m.countConfigErrors (((call.perform m).1 ::
            (run (call.perform m).2 calls).1).countP isRejection) := by
          rw [counted, Metrics.countConfigErrors_countConfigErrors, List.countP_cons, Nat.add_comm]

/-- A configuration is told of each broken rule once, and over any run of calls each that was rejected
is counted once and no other. What a call makes of its text or file does not depend on the count. -/
theorem told_and_counted :
    (∀ c : ServiceConfig, c.ToldOnce) ∧
    (∀ (calls : List ConfigCall) (m : Metrics), List.Forall₂ Ends calls (run m calls).1 ∧
      (run m calls).2 =
        { m with configErrors := m.configErrors + (run m calls).1.countP isRejection }) ∧
    (∀ text m, (ServiceConfig.parseCounting text m).1 = ServiceConfig.parse text) ∧
    ∀ files env path m,
      (ServiceConfig.loadCounting files env path m).1 = ServiceConfig.load files env path :=
  ⟨ServiceConfig.toldOnce, run_ends, ServiceConfig.parseCounting_fst, ServiceConfig.loadCounting_fst⟩

/-- The file is missing, and the text holds no configuration: one of the two is counted. -/
example : (run .zero [load [] [] "keystone.yaml", parse "keystone"]).2.configErrors = 1 := by
  decide +kernel

end ConfigCall

end TokenKeeper
