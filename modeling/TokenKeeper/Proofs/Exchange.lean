import TokenKeeper.Auth.Authenticator
import TokenKeeper.Proofs.Delivery
import TokenKeeper.Proofs.Outcome
import TokenKeeper.Proofs.Transport

/-!
# What one exchange does

`Authenticator.authenticate` in its parts: the token is concluded from what becomes of one request
(`exchanged`), the authenticator afterwards is the one the exchange was run with (`prepared`), and of
the world only the peer, the requests it received, the metrics and the log change. Nothing else in
the library sends a request, so what holds of `exchanged` holds of every request.
-/

namespace TokenKeeper

namespace Http

/-- What becomes of a text of JSON that is handed over at an address. -/
def handOver (client : HttpClient) (address body : String) (p : Peer) : Exchanged :=
  match readAddress address with
  | .ok url => send client (.postJson url body) p
  | .error f => ⟨.error f, p, []⟩

theorem readAddress_ok_iff {s : String} {u : Url} :
    readAddress s = .ok u ↔ ∃ v, Url.parse s = .ok v ∧ v.isWeb = true ∧ u = v.withoutUser := by
  unfold readAddress
  cases Url.parse s with
  | error _ => simp
  | ok v =>
    simp only [Except.ok.injEq, exists_eq_left']
    split
    · next hv =>
      simp only [Except.ok.injEq, hv, true_and]
      exact eq_comm
    · next hv => simp [hv]

/-- What reaches the peer when a text is handed over: nothing, or a row that begins at the address. -/
theorem handOver_received (client : HttpClient) (address body : String) (p : Peer) :
    (handOver client address body p).received = [] ∨
      ∃ url rs, readAddress address = .ok url ∧
        (handOver client address body p).received = .postJson url body :: rs ∧
        rs.length ≤ maxRedirects ∧ Trail (.postJson url body :: rs) p.script := by
  unfold handOver
  cases readAddress address with
  | error _ => exact .inl rfl
  | ok url =>
    refine (follow_received client maxRedirects (.postJson url body) p).imp_right ?_
    rintro ⟨rs, h⟩
    exact ⟨url, rs, rfl, h⟩

/-- The response to a text that is handed over is the one at the end of all redirects. -/
theorem handOver_ok {client : HttpClient} {address body : String} {p : Peer} {answer : Response}
    (h : (handOver client address body p).outcome = .ok answer) :
    (handOver client address body p).EndsIn p.script answer := by
  unfold handOver at h ⊢
  split at h
  · exact follow_ok h
  · cases h

end Http

theorem World.post_eq (w : World) (client : HttpClient) (address body : String) :
    w.post client address body =
      ((Http.handOver client address body w.peer).outcome,
        { w with
          peer := (Http.handOver client address body w.peer).peer
          received := w.received ++ (Http.handOver client address body w.peer).received }) := by
  unfold World.post Http.handOver
  cases Http.readAddress address with
  | error _ => simp
  | ok _ => rfl

/-- How many exchanges have begun. -/
def Metrics.attempts (m : Metrics) : Nat := m.requests.total fun _ => true

namespace Authenticator
variable (a : Authenticator) (w : World)

theorem prepared_credentials : a.prepared.credentials = a.credentials := by
  unfold prepared; split <;> rfl

theorem prepared_forceInsecureV3 : a.prepared.forceInsecureV3 = a.forceInsecureV3 := by
  unfold prepared; split <;> rfl

theorem prepared_isForced : a.prepared.isForced = a.isForced := by
  unfold isForced; rw [prepared_credentials, prepared_forceInsecureV3]

theorem prepared_transport :
    a.prepared.transport = if a.isForced then a.transport.forceInsecure else a.transport := by
  unfold prepared; split <;> rfl

theorem prepared_authUrl : a.prepared.transport.authUrl = a.transport.authUrl := by
  rw [prepared_transport]
  split
  · exact a.transport.forceInsecure_authUrl
  · rfl

theorem prepared_timeoutMs : a.prepared.transport.timeoutMs = a.transport.timeoutMs := by
  rw [prepared_transport]
  split
  · exact a.transport.forceInsecure_timeoutMs
  · rfl

def address : String := a.transport.url a.strategy.suffix

theorem prepared_address : a.prepared.address = a.address := by
  unfold address strategy Transport.url
  rw [prepared_authUrl, prepared_credentials]

/-- The one request of an exchange: what became of it, and which requests reached the peer. -/
def exchanged (p : Http.Peer) : Http.Exchanged :=
  Http.handOver a.prepared.transport.client a.address (a.strategy.body a.credentials) p

theorem exchanged_endsIn {p : Http.Peer} {answer : Http.Response}
    (h : (a.exchanged p).outcome = .ok answer) : (a.exchanged p).EndsIn p.script answer :=
  Http.handOver_ok h

/-- What an exchange changes in the metrics, beginning and end. -/
def counted (outcome : Except AuthError Token) (m : Metrics) : Metrics :=
  countOutcome a.strategy.protocol outcome
    ((m.countRequest a.strategy.protocol a.strategy.method).countDuration a.strategy.protocol)

def exchangeRecords (p : Http.Peer) : List LogRecord :=
  a.prepared.startRecords ++
    (scopeRecords a.strategy (a.exchanged p).outcome ++
      [endRecord a.strategy (a.strategy.conclude (a.exchanged p).outcome)])

/-- An exchange is one request, and the token that is concluded from what became of it. -/
theorem authenticate_eq :
    a.authenticate w =
      (a.strategy.conclude (a.exchanged w.peer).outcome, a.prepared,
        { peer := (a.exchanged w.peer).peer
          received := w.received ++ (a.exchanged w.peer).received
          metrics := a.counted (a.strategy.conclude (a.exchanged w.peer).outcome) w.metrics
          records := w.records ++ a.exchangeRecords w.peer }) := by
  have haddress : a.prepared.transport.url a.strategy.suffix = a.address := by
    rw [← prepared_address]; unfold address strategy; rw [prepared_credentials]
  unfold authenticate
  simp only [World.post_eq, World.count, World.log, haddress]
  simp only [exchanged, counted, exchangeRecords, List.append_assoc]

theorem authenticate_outcome :
    (a.authenticate w).1 = a.strategy.conclude (a.exchanged w.peer).outcome := by
  rw [authenticate_eq]

theorem authenticate_authenticator : (a.authenticate w).2.1 = a.prepared := by
  rw [authenticate_eq]

theorem counted_requests (outcome : Except AuthError Token) (m : Metrics) :
    (a.counted outcome m).requests = m.requests.bump (a.strategy.protocol, a.strategy.method) := by
  unfold counted countOutcome
  cases outcome with
  | error _ => rfl
  | ok t => dsimp only; cases readTime t.expiresAt <;> rfl

theorem counted_refreshes (outcome : Except AuthError Token) (m : Metrics) :
    (a.counted outcome m).refreshes = m.refreshes := by
  unfold counted countOutcome
  cases outcome with
  | error _ => rfl
  | ok t => dsimp only; cases readTime t.expiresAt <;> rfl

theorem counted_attempts (outcome : Except AuthError Token) (m : Metrics) :
    (a.counted outcome m).attempts = m.attempts + 1 := by
  unfold Metrics.attempts
  rw [counted_requests, Counts.total_bump]
  rfl

end Authenticator

end TokenKeeper
