import TokenKeeper.Proofs.Runs

/-!
# Secrets

A password and an admin token leave a client in the body of a request and nowhere else. Every
function that touches one is taken with its secrets withheld, the texts that have been handed over
included: the result is the same but for what is withheld in it again. So whatever is seen of a run,
apart from those texts, is seen of the run with the secrets withheld, and two clients that differ in
secrets alone cannot be told apart. Only the presence of an admin token is no secret: it decides the
way to authenticate.
-/

namespace TokenKeeper

namespace Http
variable (client : HttpClient)

/-- The request without the text that it hands over. -/
def Request.withheld (r : Request) : Request := { r with body := r.body.map fun _ => "" }

theorem Request.next?_withheld (r : Request) (answer : Response) :
    r.withheld.next? answer = (r.next? answer).map withheld := by
  have hfirst (target : String) : r.withheld.url.join target = r.url.join target := rfl
  unfold next?
  split
  · rfl
  · rw [Option.map_bind]
    congr 1
    funext target
    rw [hfirst, Function.comp_apply, Option.map_map]
    congr 1
    funext url
    rw [Function.comp_apply]
    split <;> rfl

def Exchanged.withheld (e : Exchanged) : Exchanged :=
  { e with received := e.received.map Request.withheld }

theorem Exchanged.of_withheld_eq {e₁ e₂ : Exchanged} (h : e₁.withheld = e₂.withheld) :
    e₁.outcome = e₂.outcome ∧ e₁.peer = e₂.peer ∧
      e₁.received.map Request.withheld = e₂.received.map Request.withheld := by
  unfold withheld at h
  injection h with houtcome hpeer hreceived
  exact ⟨houtcome, hpeer, hreceived⟩

theorem deliver_withheld (r : Request) (p : Peer) :
    deliver client r.withheld p = (deliver client r p).withheld := by
  unfold deliver
  rw [show r.withheld.url = r.url from rfl]
  split
  · rfl
  · dsimp only
    split <;> rfl

/-- Where a request is led depends on the answers and not on the text it hands over. -/
theorem follow_withheld (n : Nat) (r : Request) (p : Peer) :
    follow client n r.withheld p = (follow client n r p).withheld := by
  induction n generalizing r p with
  | zero =>
    unfold follow
    dsimp only
    rw [deliver_withheld]
    obtain ⟨_ | answer, after, received⟩ := deliver client r p
    · rfl
    · dsimp only [Exchanged.withheld]
      rw [Request.next?_withheld]
      cases r.next? answer <;> rfl
  | succ n ih =>
    unfold follow
    dsimp only
    rw [deliver_withheld]
    obtain ⟨_ | answer, after, received⟩ := deliver client r p
    · rfl
    · dsimp only [Exchanged.withheld]
      rw [Request.next?_withheld]
      cases r.next? answer with
      | none => rfl
      | some next =>
        rw [Option.map_some]
        dsimp only
        rw [show next.withheld.url = next.url from rfl, ih]
        split
        · rfl
        · dsimp only [Exchanged.withheld]
          rw [List.map_append]

theorem handOver_withheld (address body : String) (p : Peer) :
    (handOver client address body p).withheld = handOver client address "" p := by
  unfold handOver
  cases readAddress address with
  | error _ => rfl
  | ok url => exact (follow_withheld client maxRedirects (.postJson url body) p).symm

end Http

def World.withheld (w : World) : World := { w with received := w.received.map Http.Request.withheld }

theorem Http.Request.withheld_withheld (r : Request) : r.withheld.withheld = r.withheld := by
  unfold withheld
  rw [Option.map_map]
  rfl

theorem Http.Request.map_withheld_withheld (rs : List Request) :
    (rs.map withheld).map withheld = rs.map withheld := by
  rw [List.map_map]
  exact List.map_congr_left fun r _ => r.withheld_withheld

theorem World.withheld_withheld (w : World) : w.withheld.withheld = w.withheld := by
  unfold withheld
  rw [Http.Request.map_withheld_withheld]

/-- The credentials with placeholders for the secrets that count. -/
def Credentials.withheld (c : Credentials) : Credentials :=
  { c with password := redacted, adminToken := c.effectiveAdminToken.map fun _ => redacted }

/-- The credentials differ in the password at most, and in the admin token if each of them has one that
counts. -/
structure Credentials.SameButSecrets (c₁ c₂ : Credentials) : Prop where
  rest : { c₁ with password := c₂.password, adminToken := c₂.adminToken } = c₂
  adminToken : c₁.adminToken = c₂.adminToken ∨
    (c₁.effectiveAdminToken.isSome ∧ c₂.effectiveAdminToken.isSome)

namespace Credentials
variable (c : Credentials)

theorem SameButSecrets.withheld_eq {c₁ c₂ : Credentials} (h : c₁.SameButSecrets c₂) :
    c₁.withheld = c₂.withheld := by
  have htoken : c₁.effectiveAdminToken.map (fun _ => redacted) =
      c₂.effectiveAdminToken.map fun _ => redacted := by
    rcases h.adminToken with h | ⟨h₁, h₂⟩
    · unfold effectiveAdminToken
      rw [h]
    · obtain ⟨t₁, h₁⟩ := Option.isSome_iff_exists.1 h₁
      obtain ⟨t₂, h₂⟩ := Option.isSome_iff_exists.1 h₂
      rw [h₁, h₂]
      rfl
  unfold withheld
  rw [htoken, ← h.rest]

theorem effectiveAdminToken_withheld :
    c.withheld.effectiveAdminToken = c.effectiveAdminToken.map fun _ => redacted := by
  have hcounts : redacted.isEmpty = false := by decide +kernel
  have hmap : c.withheld.effectiveAdminToken =
      (c.effectiveAdminToken.map fun _ => redacted).filter fun t => !t.isEmpty := rfl
  rw [hmap]
  cases c.effectiveAdminToken with
  | none => rfl
  | some _ => simp [hcounts]

theorem effectiveAdminToken_withheld_isSome :
    c.withheld.effectiveAdminToken.isSome = c.effectiveAdminToken.isSome := by
  rw [effectiveAdminToken_withheld, Option.isSome_map]

theorem withheld_withheld : c.withheld.withheld = c.withheld := by
  have h := c.effectiveAdminToken_withheld
  unfold withheld at h ⊢
  rw [h, Option.map_map]
  rfl

theorem display_withheld : c.withheld.display = c.display := by
  unfold display
  rw [effectiveAdminToken_withheld_isSome]
  rfl

end Credentials

theorem Strategy.ofCredentials_withheld (c : Credentials) :
    ofCredentials c.withheld = ofCredentials c := by
  unfold ofCredentials
  rw [c.effectiveAdminToken_withheld_isSome]
  rfl

namespace Authenticator
variable (a : Authenticator) (w : World)

def withheld : Authenticator := { a with credentials := a.credentials.withheld }

theorem strategy_withheld : a.withheld.strategy = a.strategy :=
  Strategy.ofCredentials_withheld a.credentials

theorem prepared_withheld : a.withheld.prepared = a.prepared.withheld := by
  unfold prepared
  rw [show a.withheld.isForced = a.isForced from rfl]
  split <;> rfl

theorem startRecords_withheld : a.withheld.startRecords = a.startRecords := by
  unfold startRecords
  rw [strategy_withheld]
  rfl

theorem address_withheld : a.withheld.address = a.address := by
  unfold address
  rw [strategy_withheld]
  rfl

/-- What becomes of the request of an exchange owes nothing to the secrets in it. -/
theorem exchanged_withheld (p : Http.Peer) :
    (a.withheld.exchanged p).withheld = (a.exchanged p).withheld := by
  unfold exchanged
  rw [Http.handOver_withheld, Http.handOver_withheld, address_withheld, prepared_withheld]
  rfl

theorem exchangeRecords_withheld (p : Http.Peer) :
    a.withheld.exchangeRecords p = a.exchangeRecords p := by
  unfold exchangeRecords
  rw [prepared_withheld, startRecords_withheld, strategy_withheld,
    (Http.Exchanged.of_withheld_eq (a.exchanged_withheld p)).1]

theorem counted_withheld (outcome : Except AuthError Token) (m : Metrics) :
    a.withheld.counted outcome m = a.counted outcome m := by
  unfold counted
  rw [strategy_withheld]

theorem authenticate_withheld :
    (a.withheld.authenticate w.withheld).1 = (a.authenticate w).1 ∧
      (a.withheld.authenticate w.withheld).2.1 = (a.authenticate w).2.1.withheld ∧
      (a.withheld.authenticate w.withheld).2.2.withheld = (a.authenticate w).2.2.withheld := by
  obtain ⟨houtcome, hpeer, hreceived⟩ :=
    Http.Exchanged.of_withheld_eq (a.exchanged_withheld w.peer)
  rw [authenticate_eq, authenticate_eq]
  unfold World.withheld
  dsimp only
  simp only [strategy_withheld, prepared_withheld, exchangeRecords_withheld, counted_withheld, houtcome,
    hpeer, List.map_append, hreceived, Http.Request.map_withheld_withheld, and_self]

theorem withheld_withheld : a.withheld.withheld = a.withheld := by
  unfold withheld
  rw [Credentials.withheld_withheld]

end Authenticator

namespace Client
variable (c : Client) (w : World)

def withheld : Client := { c with authenticator := c.authenticator.withheld }

theorem withheld_withheld : c.withheld.withheld = c.withheld := by
  unfold withheld
  rw [Authenticator.withheld_withheld]

/-- What an operation of a client results in, the client and the world with their secrets withheld. -/
def resultWithheld {α : Type} (r : α × Client × World) : α × Client × World :=
  (r.1, r.2.1.withheld, r.2.2.withheld)

theorem resultWithheld_eq_iff {α : Type} {r₁ r₂ : α × Client × World} :
    resultWithheld r₁ = resultWithheld r₂ ↔
      r₁.1 = r₂.1 ∧ r₁.2.1.withheld = r₂.2.1.withheld ∧ r₁.2.2.withheld = r₂.2.2.withheld := by
  unfold resultWithheld
  rw [Prod.mk.injEq, Prod.mk.injEq]

theorem authenticate_withheld :
    resultWithheld (c.withheld.authenticate w.withheld) = resultWithheld (c.authenticate w) := by
  have h := c.authenticator.authenticate_withheld w
  unfold authenticate
  rw [show c.withheld.authenticator = c.authenticator.withheld from rfl]
  generalize c.authenticator.withheld.authenticate w.withheld = r at h ⊢
  generalize c.authenticator.authenticate w = r' at h ⊢
  obtain ⟨result, _, w₁⟩ := r
  obtain ⟨_, a, w₂⟩ := r'
  dsimp only at h
  obtain ⟨rfl, rfl, hw⟩ := h
  unfold resultWithheld withheld
  cases result with
  | error e => dsimp only; rw [hw, Authenticator.withheld_withheld]
  | ok token => dsimp only; rw [hw, Authenticator.withheld_withheld]; rfl

theorem addAuthentication_withheld (headers : Http.Headers) :
    resultWithheld (c.withheld.addAuthentication headers w.withheld) =
      resultWithheld (c.addAuthentication headers w) := by
  cases hc : c.cache with
  | some kept =>
    have hc' : c.withheld.cache = some kept := hc
    rw [c.addAuthentication_of_kept w hc, c.withheld.addAuthentication_of_kept w.withheld hc']
    unfold resultWithheld
    rw [withheld_withheld, World.withheld_withheld]
  | none =>
    have hc' : c.withheld.cache = none := hc
    have h := c.authenticate_withheld w
    rw [c.addAuthentication_of_none w hc, c.withheld.addAuthentication_of_none w.withheld hc']
    generalize c.withheld.authenticate w.withheld = r at h ⊢
    generalize c.authenticate w = r' at h ⊢
    obtain ⟨result, c₁, w₁⟩ := r
    obtain ⟨_, c₂, w₂⟩ := r'
    obtain ⟨hresult, hclient, hworld⟩ := resultWithheld_eq_iff.1 h
    -- putting a token on a request looks at the token that is kept and at nothing withheld
    have hinject : c₁.inject headers = c₂.inject headers := by
      show c₁.withheld.inject headers = c₂.withheld.inject headers
      rw [hclient]
    dsimp only at hresult ⊢
    rw [resultWithheld_eq_iff, hresult, hinject]
    exact ⟨rfl, hclient, hworld⟩

theorem addAuthenticationKeepalive_withheld (now : Time.Instant) (headers : Http.Headers) :
    resultWithheld (c.withheld.addAuthenticationKeepalive now headers w.withheld) =
      resultWithheld (c.addAuthenticationKeepalive now headers w) := by
  unfold addAuthenticationKeepalive
  rw [show c.withheld.cache = c.cache from rfl]
  cases c.cache.needsRenewal now with
  | error e =>
    unfold resultWithheld
    rw [withheld_withheld, World.withheld_withheld]
  | ok isDue =>
    dsimp only
    split
    · exact c.invalidate.addAuthentication_withheld w.renewing headers
    · exact c.addAuthentication_withheld w headers

end Client

namespace Session

/-- The session without secrets: neither those of its credentials nor those that were handed over. -/
def withheld (s : Session) : Session := ⟨s.kind, s.client.withheld, s.world.withheld⟩

/-- What is seen of a step but the texts that are handed over in it. -/
def View.withheld (v : View) : View := { v with received := v.received.map Http.Request.withheld }

variable {s s₁ s₂ : Session}

theorem withheld_mk_eq {kind : ClientKind} {c₁ c₂ : Client} {w₁ w₂ : World}
    (hc : c₁.withheld = c₂.withheld) (hw : w₁.withheld = w₂.withheld) :
    (mk kind c₁ w₁).withheld = (mk kind c₂ w₂).withheld := by
  unfold withheld
  rw [hc, hw]

theorem withheld_withheld : s.withheld.withheld = s.withheld := by
  unfold withheld
  rw [Client.withheld_withheld, World.withheld_withheld]

theorem addAuthentication_withheld (s : Session) (now : Time.Instant) (headers : Http.Headers) :
    Client.resultWithheld (s.withheld.addAuthentication now headers) =
      Client.resultWithheld (s.addAuthentication now headers) := by
  unfold addAuthentication
  rw [show s.withheld.kind = s.kind from rfl]
  cases s.kind with
  | onDemand => exact s.client.addAuthentication_withheld s.world headers
  | keepalive => exact s.client.addAuthenticationKeepalive_withheld s.world now headers

theorem step_withheld_of_quiet {o : Operation} (h : asksForToken o = false)
    (around : Surroundings) :
    s.withheld.step around o = ((s.step around o).1, (s.step around o).2.withheld) := by
  cases o with
  | authenticate | addAuthentication => cases h
  | addEncryption tls =>
    cases ht : s.client.transport.configure around.files tls with
    | ok t => rw [step_addEncryption_ok ht, step_addEncryption_ok (s := s.withheld) ht]; rfl
    | error e => rw [step_addEncryption_error ht, step_addEncryption_error (s := s.withheld) ht]; rfl
  | display =>
    exact congrArg (fun shown => (Outcome.text shown, s.withheld))
      s.client.authenticator.credentials.display_withheld
  | needsRenewal | invalidate | metrics => rfl

theorem step_withheld (s : Session) (around : Surroundings) (o : Operation) :
    (s.withheld.step around o).1 = (s.step around o).1 ∧
      (s.withheld.step around o).2.withheld = (s.step around o).2.withheld := by
  cases o with
  | authenticate =>
    obtain ⟨hresult, hclient, hworld⟩ :=
      Client.resultWithheld_eq_iff.1 (s.client.authenticate_withheld s.world)
    rw [step_authenticate, step_authenticate]
    dsimp only
    rw [show s.withheld.client = s.client.withheld from rfl,
      show s.withheld.world = s.world.withheld from rfl, hresult, withheld_mk_eq hclient hworld]
    exact ⟨rfl, rfl⟩
  | addAuthentication headers =>
    obtain ⟨hresult, hclient, hworld⟩ :=
      Client.resultWithheld_eq_iff.1 (s.addAuthentication_withheld around.now headers)
    rw [step_addAuthentication, step_addAuthentication]
    dsimp only
    rw [hresult, withheld_mk_eq hclient hworld]
    exact ⟨rfl, rfl⟩
  | needsRenewal | addEncryption | invalidate | display | metrics =>
    rw [step_withheld_of_quiet rfl]
    exact ⟨rfl, withheld_withheld⟩

theorem receivedSince_withheld (s earlier : Session) :
    (s.receivedSince earlier).map Http.Request.withheld =
      s.withheld.receivedSince earlier.withheld := by
  unfold receivedSince withheld World.withheld
  rw [List.map_drop, List.length_map]

theorem observe_withheld (s : Session) (around : Surroundings) (o : Operation) :
    (s.observe around o).1.withheld =
      let after := (s.step around o).2.withheld
      ⟨(s.step around o).1, after.client.cache, after.client.transport.authUrl,
        after.client.transport.policy, after.receivedSince s.withheld⟩ :=
  congrArg (View.mk (s.step around o).1 (s.step around o).2.client.cache
    (s.step around o).2.client.transport.authUrl (s.step around o).2.client.transport.policy)
    ((s.step around o).2.receivedSince_withheld s)

/-- Sessions that differ in secrets show the same in a step and differ in secrets alone after it. -/
theorem observe_of_withheld_eq (h : s₁.withheld = s₂.withheld) (around : Surroundings) (o : Operation) :
    (s₁.observe around o).1.withheld = (s₂.observe around o).1.withheld ∧
      (s₁.observe around o).2.withheld = (s₂.observe around o).2.withheld := by
  obtain ⟨houtcome₁, hafter₁⟩ := s₁.step_withheld around o
  obtain ⟨houtcome₂, hafter₂⟩ := s₂.step_withheld around o
  have houtcome : (s₁.step around o).1 = (s₂.step around o).1 := by
    rw [← houtcome₁, ← houtcome₂, h]
  have hafter : (s₁.step around o).2.withheld = (s₂.step around o).2.withheld := by
    rw [← hafter₁, ← hafter₂, h]
  rw [observe_withheld, observe_withheld, houtcome, hafter, h]
  exact ⟨rfl, hafter⟩

theorem run_of_withheld_eq (h : s₁.withheld = s₂.withheld)
    (steps : List (Surroundings × Operation)) :
    (s₁.run steps).1.map View.withheld = (s₂.run steps).1.map View.withheld ∧
      (s₁.run steps).2.withheld = (s₂.run steps).2.withheld := by
  induction steps generalizing s₁ s₂ with
  | nil => exact ⟨rfl, h⟩
  | cons step rest ih =>
    obtain ⟨hview, hafter⟩ := observe_of_withheld_eq h step.1 step.2
    obtain ⟨hviews, hend⟩ := ih hafter
    unfold run
    dsimp only
    rw [List.map_cons, List.map_cons, hview, hviews]
    exact ⟨rfl, hend⟩

/-- Clients whose credentials differ in secrets alone cannot be told apart: whatever is asked of them,
the same is seen of each step but for the texts that are handed over, and at the end they keep the same,
go the same way to the identity service, and have left the same metrics, records and peer. -/
theorem run_of_sameButSecrets {c₁ c₂ : Credentials} (h : c₁.SameButSecrets c₂) (kind : ClientKind)
    (transport : Transport) (forceInsecureV3 : Bool) (cache : TokenCache) (w : World)
    (steps : List (Surroundings × Operation)) :
    let first := (mk kind ⟨⟨c₁, transport, forceInsecureV3⟩, cache⟩ w).run steps
    let second := (mk kind ⟨⟨c₂, transport, forceInsecureV3⟩, cache⟩ w).run steps
    first.1.map View.withheld = second.1.map View.withheld ∧
      first.2.client.cache = second.2.client.cache ∧
      first.2.client.transport = second.2.client.transport ∧
      first.2.world.withheld = second.2.world.withheld := by
  have hstart : (mk kind ⟨⟨c₁, transport, forceInsecureV3⟩, cache⟩ w).withheld =
      (mk kind ⟨⟨c₂, transport, forceInsecureV3⟩, cache⟩ w).withheld := by
    unfold withheld Client.withheld Authenticator.withheld
    dsimp only
    rw [h.withheld_eq]
  obtain ⟨hviews, hend⟩ := run_of_withheld_eq hstart steps
  intro first second
  exact ⟨hviews, congrArg (fun s => s.client.cache) hend,
    congrArg (fun s => s.client.transport) hend, congrArg Session.world hend⟩

def adminWith (password token : String) : Credentials :=
  ⟨"http://keystone", .v2, "demo", "", "admin", password, some token, "", ""⟩

def v2World : World :=
  .start ⟨true, [], [], [.of 200 [] (Text.Utf8.encode
    ("\x7b\"access\":\x7b\"token\":\x7b\"id\":\"new\",\"issued_at\":\"2000-01-01T00:00:00Z\"," ++
      "\"expires\":\"3000-01-01T00:00:00Z\"\x7d\x7d\x7d")) true]⟩

theorem run_of_sameButSecrets_admins :
    let steps := [(⟨[], ⟨0, 0⟩⟩, Operation.authenticate), (⟨[], ⟨0, 0⟩⟩, .display)]
    let start c := mk .keepalive ⟨⟨c, .new "http://keystone" none, true⟩, none⟩ v2World
    let first := (start (adminWith "one" "alpha")).run steps
    let second := (start (adminWith "two" "beta")).run steps
    (adminWith "one" "alpha").SameButSecrets (adminWith "two" "beta") ∧
      first.1.map View.withheld = second.1.map View.withheld ∧
      first.2.client.cache = second.2.client.cache ∧
      first.2.client.cache.map (·.token.id) = some "new" ∧
      first.2.world.received ≠ second.2.world.received := by
  have hsame : (adminWith "one" "alpha").SameButSecrets (adminWith "two" "beta") :=
    ⟨rfl, .inr ⟨by decide, by decide⟩⟩
  have hrun := run_of_sameButSecrets hsame .keepalive (.new "http://keystone" none) true none v2World
  dsimp only at hrun ⊢
  exact ⟨hsame, (hrun _).1, (hrun _).2.1, by decide +kernel, by decide +kernel⟩

end Session

end TokenKeeper
