import TokenKeeper.Client.Run
import TokenKeeper.Proofs.Exchange

/-!
# What a step of a client can do

Whatever is asked of a client comes down to one of four effects (`Session.Effect`): nothing but
records, the token dropped, another way to the identity service, or one exchange. An invariant of
runs is proved by one case for each effect and lifted by `Session.run_keeps`; no later proof opens
`Session.step` again, except where the outcome of a step itself is the subject.
-/

namespace TokenKeeper

theorem World.log_nil (w : World) : w.log [] = w := by
  unfold World.log; rw [List.append_nil]

namespace Client
variable (c : Client) (w : World)

theorem authenticate_authenticator :
    (c.authenticate w).2.1.authenticator = c.authenticator.prepared := by
  have h := c.authenticator.authenticate_authenticator w
  unfold authenticate
  generalize c.authenticator.authenticate w = r at h
  obtain ⟨_ | _, _, _⟩ := r <;> exact h

theorem authenticate_world : (c.authenticate w).2.2 = (c.authenticator.authenticate w).2.2 := by
  unfold authenticate
  generalize c.authenticator.authenticate w = r
  obtain ⟨_ | _, _, _⟩ := r <;> rfl

/-- An exchange that succeeds is the only thing that fills the cache. -/
theorem authenticate_ok {token : Token} (h : (c.authenticator.authenticate w).1 = .ok token) :
    (c.authenticate w).1 = .ok () ∧
      (c.authenticate w).2.1.cache = some ⟨token, c.authenticator.credentials.protocol⟩ := by
  have ha := c.authenticator.authenticate_authenticator w
  rw [← c.authenticator.prepared_credentials, ← ha]
  unfold authenticate
  generalize c.authenticator.authenticate w = r at h
  obtain ⟨_ | _, _, _⟩ := r
  · cases h
  · cases h; exact ⟨rfl, rfl⟩

theorem authenticate_error {e : AuthError} (h : (c.authenticator.authenticate w).1 = .error e) :
    (c.authenticate w).1 = .error e ∧ (c.authenticate w).2.1.cache = c.cache := by
  unfold authenticate
  generalize c.authenticator.authenticate w = r at h
  obtain ⟨_ | _, _, _⟩ := r
  · cases h; exact ⟨rfl, rfl⟩
  · cases h

theorem addAuthentication_of_kept {kept : CachedToken} (h : c.cache = some kept)
    (headers : Http.Headers) :
    c.addAuthentication headers w = (withToken headers kept.token.id, c, w) := by
  unfold addAuthentication inject
  rw [h]
  rfl

/-- Without a token the client afterwards and the world are those of one exchange. -/
theorem addAuthentication_of_none (h : c.cache = none) (headers : Http.Headers) :
    c.addAuthentication headers w =
      ((c.authenticate w).1.bind fun _ => (c.authenticate w).2.1.inject headers,
        (c.authenticate w).2) := by
  unfold addAuthentication
  rw [h]
  generalize c.authenticate w = r
  obtain ⟨_ | _, _, _⟩ := r <;> rfl

theorem addAuthentication_of_none_snd (h : c.cache = none) (headers : Http.Headers) :
    (c.addAuthentication headers w).2 = (c.authenticate w).2 := by
  rw [c.addAuthentication_of_none w h headers]

/-- A client of a configuration with a TLS section is one whose transport has been configured. -/
theorem ofConfig_ok_iff {files : Files} {config : ServiceConfig} {tls : TlsSection} {c : Client}
    (htls : config.tls = some tls) :
    ofConfig files config = .ok c ↔
      ∃ t, (Transport.new config.identity.authUrl config.timeoutMs).configure files tls.files = .ok t ∧
        c = ⟨⟨config.identity, t, config.forceInsecureV3⟩, none⟩ := by
  unfold ofConfig
  rw [htls]
  dsimp only [addEncryption, transport]
  cases (Transport.new config.identity.authUrl config.timeoutMs).configure files tls.files with
  | error _ => simp [Except.map]
  | ok t => simp [Except.map, withTransport, eq_comm]

end Client

/-- The world in which a token past half its life is replaced. -/
def World.renewing (w : World) : World :=
  (w.log [Client.renewRecord, Client.invalidateRecord]).count Metrics.countRefresh

namespace Session

/-- The way to the identity service that a step sets up, if it does. -/
def configured? (s : Session) (around : Surroundings) : Operation → Option Transport
  | .addEncryption tls => (s.client.transport.configure around.files tls).toOption
  | _ => none

/-- Only these may run an exchange. -/
def asksForToken : Operation → Bool
  | .authenticate | .addAuthentication _ => true
  | _ => false

/-- A client and a world in which an exchange may be run: as they are, or with the token dropped. -/
def Prepares (s : Session) (c : Client) (w : World) : Prop :=
  (c = s.client ∧ w = s.world) ∨ (c = s.client.invalidate ∧ w = s.world.renewing)

/-- What a step comes down to. -/
inductive Effect (s : Session) (around : Surroundings) : Operation → Session → Prop
  | quiet {o : Operation} (h : s.configured? around o = none) (records : List LogRecord) :
      Effect s around o { s with world := s.world.log records }
  | dropped :
      Effect s around .invalidate
        { s with client := s.client.invalidate, world := s.world.log [Client.invalidateRecord] }
  | configured {tls : TlsFiles} {t : Transport}
      (h : s.client.transport.configure around.files tls = .ok t) (records : List LogRecord) :
      Effect s around (.addEncryption tls)
        { s with client := s.client.withTransport t, world := s.world.log records }
  | exchanged {o : Operation} (h : asksForToken o = true) {c : Client} {w : World}
      (hp : s.Prepares c w) :
      Effect s around o
        { s with client := (c.authenticate w).2.1, world := (c.authenticate w).2.2 }

theorem Effect.unchanged {s : Session} {around : Surroundings} {o : Operation}
    (h : s.configured? around o = none) : Effect s around o s := by
  have := Effect.quiet h []
  rwa [World.log_nil] at this

/-- Putting the token on a request changes nothing, or is one exchange. -/
theorem addAuthentication_snd (s : Session) (now : Time.Instant) (headers : Http.Headers) :
    (s.addAuthentication now headers).2 = (s.client, s.world) ∨
      ∃ c w, s.Prepares c w ∧ (s.addAuthentication now headers).2 = (c.authenticate w).2 := by
  have honDemand : (s.client.addAuthentication headers s.world).2 = (s.client, s.world) ∨
      (s.client.addAuthentication headers s.world).2 = (s.client.authenticate s.world).2 := by
    cases h : s.client.cache with
    | none => exact .inr (s.client.addAuthentication_of_none_snd s.world h headers)
    | some kept => rw [s.client.addAuthentication_of_kept s.world h headers]; exact .inl rfl
  have hplain : (s.client.addAuthentication headers s.world).2 = (s.client, s.world) ∨
      ∃ c w, s.Prepares c w ∧
        (s.client.addAuthentication headers s.world).2 = (c.authenticate w).2 :=
    honDemand.imp_right fun h => ⟨s.client, s.world, .inl ⟨rfl, rfl⟩, h⟩
  unfold addAuthentication
  cases s.kind with
  | onDemand => exact hplain
  | keepalive =>
    simp only [Client.addAuthenticationKeepalive]
    split
    · exact .inl rfl
    · split
      · refine .inr ⟨s.client.invalidate, s.world.renewing, .inr ⟨rfl, rfl⟩, ?_⟩
        exact s.client.invalidate.addAuthentication_of_none_snd s.world.renewing rfl headers
      · exact hplain

theorem step_authenticate (s : Session) (around : Surroundings) :
    s.step around .authenticate =
      (.done (s.client.authenticate s.world).1,
        { s with
          client := (s.client.authenticate s.world).2.1
          world := (s.client.authenticate s.world).2.2 }) := by
  unfold step
  generalize s.client.authenticate s.world = r
  rfl

/-- What is seen of a request whose headers were to be changed. -/
def seen (headers : Http.Headers) : Except AuthError Http.Headers → Outcome
  | .ok after => .authenticated (.ok ()) after
  | .error e => .authenticated (.error e) headers

theorem step_addAuthentication (s : Session) (around : Surroundings) (headers : Http.Headers) :
    s.step around (.addAuthentication headers) =
      (seen headers (s.addAuthentication around.now headers).1,
        { s with
          client := (s.addAuthentication around.now headers).2.1
          world := (s.addAuthentication around.now headers).2.2 }) := by
  unfold step
  dsimp only
  rcases s.addAuthentication around.now headers with ⟨_ | _, _, _⟩ <;> rfl

theorem step_addEncryption_ok {s : Session} {around : Surroundings} {tls : TlsFiles} {t : Transport}
    (h : s.client.transport.configure around.files tls = .ok t) :
    s.step around (.addEncryption tls) =
      (.done (.ok ()),
        { s with
          client := s.client.withTransport t
          world := s.world.log (s.client.transport.configureRecords around.files tls) }) := by
  simp only [step, Client.addEncryption, h, Except.map]

theorem step_addEncryption_error {s : Session} {around : Surroundings} {tls : TlsFiles}
    {e : AuthError} (h : s.client.transport.configure around.files tls = .error e) :
    s.step around (.addEncryption tls) =
      (.done (.error e),
        { s with world := s.world.log (s.client.transport.configureRecords around.files tls) }) := by
  simp only [step, Client.addEncryption, h, Except.map]

theorem step_effect (s : Session) (around : Surroundings) (o : Operation) :
    s.Effect around o (s.step around o).2 := by
  cases o with
  | authenticate =>
    rw [step_authenticate]
    exact .exchanged rfl (.inl ⟨rfl, rfl⟩)
  | addAuthentication headers =>
    rw [step_addAuthentication]
    dsimp only
    rcases s.addAuthentication_snd around.now headers with h | ⟨c, w, hp, h⟩ <;> rw [h]
    · exact .unchanged rfl
    · exact .exchanged rfl hp
  | needsRenewal => exact .unchanged rfl
  | addEncryption tls =>
    cases h : s.client.transport.configure around.files tls with
    | ok t =>
      rw [step_addEncryption_ok h]
      exact .configured h _
    | error e =>
      rw [step_addEncryption_error h]
      exact .quiet (by simp only [configured?, h, Except.toOption]) _
  | invalidate => exact .dropped
  | display => exact .unchanged rfl
  | metrics => exact .unchanged rfl

namespace Prepares
variable {s : Session} {c : Client} {w : World}

theorem authenticator (h : s.Prepares c w) : c.authenticator = s.client.authenticator := by
  rcases h with ⟨rfl, -⟩ | ⟨rfl, -⟩ <;> rfl

theorem peer (h : s.Prepares c w) : w.peer = s.world.peer := by
  rcases h with ⟨-, rfl⟩ | ⟨-, rfl⟩ <;> rfl

theorem received (h : s.Prepares c w) : w.received = s.world.received := by
  rcases h with ⟨-, rfl⟩ | ⟨-, rfl⟩ <;> rfl

theorem requests (h : s.Prepares c w) : w.metrics.requests = s.world.metrics.requests := by
  rcases h with ⟨-, rfl⟩ | ⟨-, rfl⟩ <;> rfl

theorem transport_authenticate (h : s.Prepares c w) :
    (c.authenticate w).2.1.transport = s.client.authenticator.prepared.transport := by
  unfold Client.transport
  rw [c.authenticate_authenticator, h.authenticator]

theorem received_authenticate (h : s.Prepares c w) :
    (c.authenticate w).2.2.received =
      s.world.received ++ (s.client.authenticator.exchanged s.world.peer).received := by
  rw [c.authenticate_world, Authenticator.authenticate_eq, h.authenticator, h.peer, h.received]

theorem attempts_authenticate (h : s.Prepares c w) :
    (c.authenticate w).2.2.metrics.attempts = s.world.metrics.attempts + 1 := by
  rw [c.authenticate_world, Authenticator.authenticate_eq, Authenticator.counted_attempts]
  unfold Metrics.attempts
  rw [h.requests]

end Prepares

theorem run_cons (s : Session) (around : Surroundings) (o : Operation)
    (rest : List (Surroundings × Operation)) :
    (s.run ((around, o) :: rest)).2 = ((s.step around o).2.run rest).2 := rfl

/-- What every step keeps holds after every run. -/
theorem run_keeps {P : Session → Prop} (hstep : ∀ s around o, P s → P (s.step around o).2)
    {s : Session} (h : P s) (steps : List (Surroundings × Operation)) : P (s.run steps).2 := by
  induction steps generalizing s with
  | nil => exact h
  | cons step rest ih => exact ih (hstep s step.1 step.2 h)

theorem run_append_eq (s : Session) (first second : List (Surroundings × Operation)) :
    s.run (first ++ second) =
      ((s.run first).1 ++ ((s.run first).2.run second).1, ((s.run first).2.run second).2) := by
  induction first generalizing s with
  | nil => rfl
  | cons step rest ih =>
    obtain ⟨around, o⟩ := step
    simp only [List.cons_append, run, ih]

theorem run_append (s : Session) (first second : List (Surroundings × Operation)) :
    (s.run (first ++ second)).2 = ((s.run first).2.run second).2 := by
  rw [run_append_eq]

/-- The requests of a step are those of one exchange, or there are none. -/
theorem observe_received (s : Session) (around : Surroundings) (o : Operation) :
    (s.observe around o).1.received = [] ∨
      (s.observe around o).1.received = (s.client.authenticator.exchanged s.world.peer).received := by
  have h : (s.observe around o).1.received =
      (s.step around o).2.world.received.drop s.world.received.length := rfl
  rw [h]
  have heffect := s.step_effect around o
  generalize (s.step around o).2 = after at heffect
  cases heffect with
  | quiet | dropped | configured => exact .inl (List.drop_length ..)
  | exchanged _ hp =>
    right
    dsimp only
    rw [hp.received_authenticate, List.drop_left]

/-- What reaches the peer in a step is nothing, or a row that begins with the credentials at the
address of the identity service. -/
theorem observe_row (s : Session) (around : Surroundings) (o : Operation) :
    let a := s.client.authenticator
    (s.observe around o).1.received = [] ∨ ∃ url rs, Http.readAddress a.address = .ok url ∧
      (s.observe around o).1.received = .postJson url (a.strategy.body a.credentials) :: rs ∧
      rs.length ≤ Http.maxRedirects ∧
      Http.Trail (.postJson url (a.strategy.body a.credentials) :: rs) s.world.peer.script := by
  intro a
  rcases s.observe_received around o with hnone | hsome
  · exact .inl hnone
  · rw [hsome]
    exact Http.handOver_received a.prepared.transport.client a.address _ s.world.peer

end Session

end TokenKeeper
