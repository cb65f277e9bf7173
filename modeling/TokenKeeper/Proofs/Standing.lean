import TokenKeeper.Proofs.Runs

/-!
# The policy that a client stands under

Three things write the policy of a transport: making it, configuring it, and exchanges that are
forced to run unverified. Which of them wrote last is a matter of the whole run before, and
`Session.policy_of_lastEncryption` reads it off: the policy is the one resolved for the last
encryption that succeeded (`Session.LastEncryption`), unless an exchange that is forced has begun
since. Between two encryptions a run leaves the transport as it is or forces it once
(`Session.run_transport`), since forcing it again changes nothing.
-/

namespace TokenKeeper

/-- An encryption that is asked for: what the files are to be, and the files that are there. -/
structure Encryption where
  files : Files
  tls : TlsFiles

/-- The policy an encryption makes; without one it is the default. -/
def Encryption.policy : Option Encryption → Except AuthError TlsPolicy
  | some e => TlsPolicy.resolve e.files e.tls
  | none => .ok .default

theorem Encryption.policy_insecure_iff {e : Option Encryption} :
    policy e = .ok .insecure ↔ ∃ given, e = some given ∧ given.tls.insecure = true := by
  cases e with
  | none => exact ⟨fun h => (nomatch h), fun ⟨_, h, _⟩ => (nomatch h)⟩
  | some given =>
    rw [policy, TlsPolicy.resolve_insecure_iff]
    exact ⟨fun h => ⟨given, rfl, h⟩, fun ⟨_, rfl, h⟩ => h⟩

theorem Transport.forceInsecure_idem (t : Transport) :
    t.forceInsecure.forceInsecure = t.forceInsecure := by
  have h := t.forceInsecure_policy
  generalize t.forceInsecure = forced at h
  unfold forceInsecure
  rw [if_pos (TlsPolicy.isInsecure_iff.2 h)]

/-- A client as it is made, with the encryption and the time limit it is made with. The TLS section of
a configuration counts as an encryption. -/
inductive Client.Begins : Client → Option Encryption → Option Nat → Prop
  | bare (credentials : Credentials) (timeoutMs : Option Nat) (forceInsecureV3 : Bool) :
      Begins ⟨⟨credentials, .new credentials.authUrl timeoutMs, forceInsecureV3⟩, none⟩ none timeoutMs
  | configured {files : Files} {config : ServiceConfig} {c : Client} (h : ofConfig files config = .ok c) :
      Begins c (config.tls.map fun tls => ⟨files, tls.files⟩) config.timeoutMs

namespace Client.Begins
variable {c : Client} {made : Option Encryption} {timeoutMs : Option Nat}

/-- The transport of a client as it is made is new, or a new one that has been configured. -/
theorem transport (h : c.Begins made timeoutMs) :
    ∃ authUrl, (made = none ∧ c.transport = .new authUrl timeoutMs) ∨
      ∃ e, made = some e ∧
        (Transport.new authUrl timeoutMs).configure e.files e.tls = .ok c.transport := by
  cases h with
  | bare credentials => exact ⟨credentials.authUrl, .inl ⟨rfl, rfl⟩⟩
  | @configured files config _ h =>
    refine ⟨config.identity.authUrl, ?_⟩
    cases htls : config.tls with
    | none =>
      unfold ofConfig at h
      rw [htls] at h
      rw [← Except.ok.inj h]
      exact .inl ⟨rfl, rfl⟩
    | some tls =>
      obtain ⟨t, ht, rfl⟩ := (ofConfig_ok_iff htls).1 h
      exact .inr ⟨_, rfl, ht⟩

theorem policy (h : c.Begins made timeoutMs) : Encryption.policy made = .ok c.transport.policy := by
  obtain ⟨_, ⟨rfl, ht⟩ | ⟨_, rfl, ht⟩⟩ := h.transport
  · rw [ht]; rfl
  · obtain ⟨p, client, hp, -, ht⟩ := Transport.configure_ok_iff.1 ht
    rw [ht]; exact hp

theorem coherent (h : c.Begins made timeoutMs) : c.transport.Coherent := by
  obtain ⟨_, ⟨-, ht⟩ | ⟨_, -, ht⟩⟩ := h.transport
  · rw [ht]; exact Transport.new_coherent _ _
  · exact Transport.configure_coherent ht

theorem timeoutMs_eq (h : c.Begins made timeoutMs) : c.transport.timeoutMs = timeoutMs := by
  obtain ⟨_, ⟨-, ht⟩ | ⟨_, -, ht⟩⟩ := h.transport
  · rw [ht]; rfl
  · exact Transport.configure_timeoutMs ht

end Client.Begins

namespace Session

def attempts (s : Session) : Nat := s.world.metrics.attempts

/-- The step is an encryption, and it succeeds. -/
def Encrypts (s : Session) (around : Surroundings) (o : Operation) : Prop :=
  ∃ tls, o = .addEncryption tls ∧ (s.step around o).1 = .done (.ok ())

/-- No encryption of the run succeeds. -/
def NeverEncrypts : Session → List (Surroundings × Operation) → Prop
  | _, [] => True
  | s, (around, o) :: rest => ¬ s.Encrypts around o ∧ NeverEncrypts (s.step around o).2 rest

/-- The last encryption of a run that succeeded, and the session right after it; where there is none,
the one that the client was made with, and the session at the start. -/
inductive LastEncryption (first : Session) (made : Option Encryption)
    (steps : List (Surroundings × Operation)) : Option Encryption → Session → Prop
  | none (h : NeverEncrypts first steps) : LastEncryption first made steps made first
  | some (before : List (Surroundings × Operation)) {after : List (Surroundings × Operation)}
      {around : Surroundings} {tls : TlsFiles}
      (hsteps : steps = before ++ (around, .addEncryption tls) :: after)
      (h : (first.run before).2.Encrypts around (.addEncryption tls))
      (hlast : NeverEncrypts ((first.run before).2.step around (.addEncryption tls)).2 after) :
      LastEncryption first made steps (some ⟨around.files, tls⟩)
        ((first.run before).2.step around (.addEncryption tls)).2

theorem encrypts_iff {s : Session} {around : Surroundings} {tls : TlsFiles} :
    s.Encrypts around (.addEncryption tls) ↔
      ∃ t, s.client.transport.configure around.files tls = .ok t := by
  unfold Encrypts
  cases h : s.client.transport.configure around.files tls with
  | ok t => simp [step_addEncryption_ok h]
  | error e => simp [step_addEncryption_error h]

theorem configured?_of_not_encrypts {s : Session} {around : Surroundings} {o : Operation}
    (h : ¬ s.Encrypts around o) : s.configured? around o = none := by
  cases o with
  | addEncryption tls =>
    rw [encrypts_iff] at h
    cases ht : s.client.transport.configure around.files tls with
    | ok t => exact absurd ⟨t, ht⟩ h
    | error e => simp only [configured?, ht, Except.toOption]
  | _ => rfl

theorem step_client_of_error {s : Session} {around : Surroundings} {tls : TlsFiles} {e : AuthError}
    (h : (s.step around (.addEncryption tls)).1 = .done (.error e)) :
    (s.step around (.addEncryption tls)).2.client = s.client := by
  cases ht : s.client.transport.configure around.files tls with
  | ok t => rw [step_addEncryption_ok ht] at h; cases h
  | error _ => rw [step_addEncryption_error ht]

theorem step_isForced (s : Session) (around : Surroundings) (o : Operation) :
    (s.step around o).2.client.authenticator.isForced = s.client.authenticator.isForced := by
  have heffect := s.step_effect around o
  generalize (s.step around o).2 = after at heffect
  cases heffect with
  | quiet | dropped | configured => rfl
  | exchanged _ hp =>
    dsimp only
    rw [Client.authenticate_authenticator, hp.authenticator, Authenticator.prepared_isForced]

theorem run_isForced (s : Session) (steps : List (Surroundings × Operation)) :
    (s.run steps).2.client.authenticator.isForced = s.client.authenticator.isForced :=
  run_keeps (P := fun after => after.client.authenticator.isForced = s.client.authenticator.isForced)
    (fun after around o h => (after.step_isForced around o).trans h) rfl steps

/-- Without an encryption a step leaves the transport alone, or begins one exchange. -/
theorem step_transport {s : Session} {around : Surroundings} {o : Operation}
    (h : ¬ s.Encrypts around o) :
    ((s.step around o).2.attempts = s.attempts ∧
      (s.step around o).2.client.transport = s.client.transport) ∨
    ((s.step around o).2.attempts = s.attempts + 1 ∧
      (s.step around o).2.client.transport = s.client.authenticator.prepared.transport) := by
  have hnone := configured?_of_not_encrypts h
  have heffect := s.step_effect around o
  generalize (s.step around o).2 = after at heffect
  cases heffect with
  | quiet | dropped => exact .inl ⟨rfl, rfl⟩
  | configured ht => simp only [configured?, ht, Except.toOption] at hnone; cases hnone
  | exchanged _ hp =>
    right
    unfold attempts
    dsimp only
    exact ⟨hp.attempts_authenticate, hp.transport_authenticate⟩

/-- Without an encryption a run leaves the transport as it is, or as one forced exchange leaves it. -/
theorem run_transport {s : Session} {steps : List (Surroundings × Operation)}
    (h : NeverEncrypts s steps) :
    s.attempts ≤ (s.run steps).2.attempts ∧
      (s.run steps).2.client.transport =
        if s.client.authenticator.isForced = true ∧ s.attempts < (s.run steps).2.attempts then
          s.client.transport.forceInsecure
        else s.client.transport := by
  induction steps generalizing s with
  | nil => exact ⟨Nat.le_refl _, (if_neg fun h => absurd h.2 (Nat.lt_irrefl _)).symm⟩
  | cons step rest ih =>
    obtain ⟨around, o⟩ := step
    rw [run_cons]
    have hforced := s.step_isForced around o
    obtain ⟨hle, htransport⟩ := ih h.2
    rw [hforced] at htransport
    rcases step_transport h.1 with ⟨hsame, hkept⟩ | ⟨hnext, hprepared⟩
    · rw [hsame] at hle htransport
      rw [hkept] at htransport
      exact ⟨hle, htransport⟩
    · rw [hnext] at hle htransport
      rw [hprepared, Authenticator.prepared_transport] at htransport
      refine ⟨Nat.le_of_succ_le hle, ?_⟩
      rw [htransport]
      -- forced once by this step, and once more changes nothing
      cases hf : s.client.authenticator.isForced with
      | false => simp [Client.transport]
      | true =>
        have hbegun : s.attempts < ((s.step around o).2.run rest).2.attempts := hle
        simp only [↓reduceIte, true_and, if_pos hbegun]
        split
        · exact s.client.transport.forceInsecure_idem
        · rfl

theorem lastEncryption_exists (first : Session) (made : Option Encryption)
    (steps : List (Surroundings × Operation)) :
    ∃ last since, LastEncryption first made steps last since := by
  induction steps generalizing first made with
  | nil => exact ⟨made, first, .none trivial⟩
  | cons step rest ih =>
    obtain ⟨around, o⟩ := step
    obtain ⟨_, _, hlast⟩ := ih (first.step around o).2 none
    cases hlast with
    | none h =>
      by_cases hfirst : first.Encrypts around o
      · obtain ⟨tls, rfl, hok⟩ := hfirst
        exact ⟨_, _, .some [] rfl ⟨tls, rfl, hok⟩ h⟩
      · exact ⟨made, first, .none ⟨hfirst, h⟩⟩
    | @some before after around' tls hsteps hok hnever =>
      refine ⟨_, _, .some ((around, o) :: before) ?_ hok hnever⟩
      rw [hsteps, List.cons_append]

/-- The transport's parts fit together, and the time limit is the one given. -/
structure Steady (timeoutMs : Option Nat) (s : Session) : Prop where
  coherent : s.client.transport.Coherent
  timeoutMs : s.client.transport.timeoutMs = timeoutMs

theorem Steady.prepared {timeoutMs : Option Nat} {s : Session} (h : Steady timeoutMs s) :
    s.client.authenticator.prepared.transport.Coherent ∧
      s.client.authenticator.prepared.transport.timeoutMs = timeoutMs := by
  refine ⟨?_, (Authenticator.prepared_timeoutMs _).trans h.timeoutMs⟩
  rw [Authenticator.prepared_transport]
  split
  · exact Transport.forceInsecure_coherent h.coherent
  · exact h.coherent

/-- A forced exchange hands the credentials over through a client that verifies nothing. -/
theorem Steady.forced_exchange {timeoutMs : Option Nat} {s : Session} (h : Steady timeoutMs s)
    (hf : s.client.authenticator.isForced = true) (w : World) :
    let a := s.client.authenticator
    (a.authenticate w).2.1.transport.policy = .insecure ∧
      (a.authenticate w).1 = a.strategy.conclude (Http.handOver (.plain false timeoutMs) a.address
        (a.strategy.body a.credentials) w.peer).outcome := by
  intro a
  obtain ⟨hcoherent, htimeout⟩ := h.prepared
  have hpolicy : a.prepared.transport.policy = .insecure := by
    rw [Authenticator.prepared_transport, if_pos hf]
    exact Transport.forceInsecure_policy _
  have hclient := hcoherent.client_of_insecure hpolicy
  rw [htimeout] at hclient
  rw [Authenticator.authenticate_eq]
  refine ⟨hpolicy, ?_⟩
  dsimp only
  rw [Authenticator.exchanged, hclient]

theorem Steady.step {timeoutMs : Option Nat} {s : Session} (h : Steady timeoutMs s)
    (around : Surroundings) (o : Operation) : Steady timeoutMs (s.step around o).2 := by
  have heffect := s.step_effect around o
  generalize (s.step around o).2 = after at heffect
  cases heffect with
  | quiet | dropped => exact ⟨h.coherent, h.timeoutMs⟩
  | configured ht =>
    exact ⟨Transport.configure_coherent ht, (Transport.configure_timeoutMs ht).trans h.timeoutMs⟩
  | exchanged _ hp =>
    obtain ⟨hcoherent, htimeout⟩ := h.prepared
    constructor <;> dsimp only <;> rw [hp.transport_authenticate]
    · exact hcoherent
    · exact htimeout

namespace LastEncryption
variable {first since : Session} {made last : Option Encryption}
  {steps : List (Surroundings × Operation)}

/-- What the run does after its last encryption. -/
theorem rest (h : LastEncryption first made steps last since) :
    ∃ after, NeverEncrypts since after ∧ (first.run steps).2 = (since.run after).2 := by
  cases h with
  | none h => exact ⟨steps, h, rfl⟩
  | @some before after _ _ hsteps _ hlast =>
    refine ⟨after, hlast, ?_⟩
    rw [hsteps, run_append, run_cons]

/-- Right after an encryption the policy is the one that it makes. -/
theorem policy (h : LastEncryption first made steps last since)
    (hmade : Encryption.policy made = .ok first.client.transport.policy) :
    Encryption.policy last = .ok since.client.transport.policy := by
  cases h with
  | none => exact hmade
  | some _ _ h _ =>
    obtain ⟨t, ht⟩ := encrypts_iff.1 h
    rw [step_addEncryption_ok ht]
    obtain ⟨p, client, hp, -, rfl⟩ := Transport.configure_ok_iff.1 ht
    exact hp

/-- After the run the policy is still that one, unless an exchange has been forced since. -/
theorem policy_after (h : LastEncryption first made steps last since) :
    (first.run steps).2.client.transport.policy =
      if first.client.authenticator.isForced = true ∧ since.attempts < (first.run steps).2.attempts then
        .insecure
      else since.client.transport.policy := by
  obtain ⟨after, hnever, hs⟩ := h.rest
  have hforced : since.client.authenticator.isForced = first.client.authenticator.isForced := by
    rw [← since.run_isForced after, ← hs, first.run_isForced steps]
  rw [hs, (run_transport hnever).2, hforced]
  split
  · exact Transport.forceInsecure_policy _
  · rfl

end LastEncryption

/-- The policy that a client stands under after any run is the one of the last encryption that
succeeded, unless exchanges are forced to run unverified and one has begun since; then nothing is
verified. So without force it is insecure only if that encryption asked for it, and with force every
exchange runs so. An encryption that fails changes nothing about the client, and its way of sending
requests is at all times the one of its policy, with the time limit it was made with. -/
theorem policy_of_lastEncryption {c : Client} {made : Option Encryption} {timeoutMs : Option Nat}
    (hc : c.Begins made timeoutMs) (kind : ClientKind) (w : World)
    (steps : List (Surroundings × Operation)) :
    let first := Session.mk kind c w
    let s := (first.run steps).2
    let forced := c.authenticator.isForced
    (∃ last since, LastEncryption first made steps last since) ∧
    (∀ last since, LastEncryption first made steps last since →
      ∃ p, Encryption.policy last = .ok p ∧
        s.client.transport.policy =
          (if forced = true ∧ since.attempts < s.attempts then .insecure else p) ∧
        (forced = false → (s.client.transport.policy = .insecure ↔
          ∃ e, last = some e ∧ e.tls.insecure = true))) ∧
    (forced = true → ∀ w,
      (s.client.authenticator.authenticate w).2.1.transport.policy = .insecure ∧
      (s.client.authenticator.authenticate w).1 = s.client.authenticator.strategy.conclude
        (Http.handOver ⟨false, none, none, timeoutMs⟩ s.client.authenticator.address
          (s.client.authenticator.strategy.body s.client.authenticator.credentials) w.peer).outcome) ∧
    (∀ around tls e, (s.step around (.addEncryption tls)).1 = .done (.error e) →
      (s.step around (.addEncryption tls)).2.client = s.client) ∧
    s.client.transport.policy.client timeoutMs = .ok s.client.transport.client ∧
    s.client.transport.client = .under s.client.transport.policy timeoutMs := by
  intro first s forced
  have hsteady : Steady timeoutMs s :=
    run_keeps (P := Steady timeoutMs) (fun _ around o h => h.step around o)
      ⟨hc.coherent, hc.timeoutMs_eq⟩ steps
  have hclient : s.client.transport.policy.client timeoutMs = .ok s.client.transport.client := by
    rw [← hsteady.timeoutMs]; exact hsteady.coherent
  refine ⟨lastEncryption_exists first made steps, fun last since hlast => ?_, fun hf w => ?_,
    fun around tls e h => step_client_of_error h, hclient, TlsPolicy.client_eq_under hclient⟩
  · have hp := hlast.policy hc.policy
    refine ⟨since.client.transport.policy, hp, hlast.policy_after, fun hf => ?_⟩
    have hsame : s.client.transport.policy = since.client.transport.policy :=
      hlast.policy_after.trans (if_neg fun h => absurd (hf.symm.trans h.1) (by decide))
    rw [hsame, ← Encryption.policy_insecure_iff, hp]
    simp
  · exact hsteady.forced_exchange ((first.run_isForced steps).trans hf) w

/-- A client whose v3 exchanges are forced to run unverified. -/
def forcedClient : Client :=
  .new ⟨"http://keystone", .v3, "", "demo", "admin", "secret", none, "Default", ""⟩ true

/-- An encryption that asks for the default policy, and an exchange after it. -/
def encryptedRun : List (Surroundings × Operation) :=
  [(⟨[], ⟨0, 0⟩⟩, .addEncryption ⟨none, none, none, false⟩), (⟨[], ⟨0, 0⟩⟩, .authenticate)]

/-- The exchange overrules the encryption before it. -/
theorem policy_of_encryptedRun :
    forcedClient.Begins none none ∧
      ∃ since, LastEncryption ⟨.keepalive, forcedClient, .start ⟨false, [], [], []⟩⟩ none encryptedRun
          (some ⟨[], ⟨none, none, none, false⟩⟩) since ∧
        since.client.transport.policy = .default ∧
        ((Session.mk .keepalive forcedClient (.start ⟨false, [], [], []⟩)).run
          encryptedRun).2.client.transport.policy = .insecure := by
  have hlast : LastEncryption ⟨.keepalive, forcedClient, .start ⟨false, [], [], []⟩⟩ none encryptedRun
      (some ⟨[], ⟨none, none, none, false⟩⟩) _ :=
    .some [] rfl ⟨_, rfl, rfl⟩ ⟨fun ⟨_, h, _⟩ => (nomatch h), trivial⟩
  have hbegins : forcedClient.Begins none none := .bare _ _ _
  obtain ⟨p, -, hpolicy, -⟩ := (policy_of_lastEncryption hbegins .keepalive
    (.start ⟨false, [], [], []⟩) encryptedRun).2.1 _ _ hlast
  refine ⟨hbegins, _, hlast, by decide +kernel, hpolicy.trans (if_pos ⟨by decide, ?_⟩)⟩
  decide +kernel

end Session

end TokenKeeper
