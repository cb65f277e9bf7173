import Mathlib.Data.List.Forall2
import TokenKeeper.Proofs.HeaderText
import TokenKeeper.Proofs.Runs

/-!
# A keepalive client and the token it is asked for

A request for the token takes one of four courses, told apart by the cache and the clock: without a
token one is obtained; a token whose times cannot be read is refused; a token of which no more than
half the life is over is put on the request; any other is dropped and replaced. Only the first and
the last run an exchange, and they run one. The refusal is for good: the times stay as they are, so
the client answers with the same error until the token is dropped or replaced.
-/

namespace TokenKeeper

/-- The first of the token's times that is no timestamp, with the fault in it. -/
def Token.Malformed (t : Token) (value : String) (fault : Time.Fault) : Prop :=
  (value = t.issuedAt ∧ Time.Rfc3339.parse t.issuedAt = .error fault) ∨
    (value = t.expiresAt ∧ (∃ issued, Time.Rfc3339.parse t.issuedAt = .ok issued) ∧
      Time.Rfc3339.parse t.expiresAt = .error fault)

/-- The times of a token: one is malformed, or the deadline lies midway between them. -/
theorem Token.deadline_cases (t : Token) :
    (∃ value fault, t.Malformed value fault ∧ t.deadline = .error (.timeParse value fault)) ∨
      ∃ issued expires, Time.Rfc3339.parse t.issuedAt = .ok issued ∧
        Time.Rfc3339.parse t.expiresAt = .ok expires ∧
        t.deadline = .ok (issued.midpoint expires) := by
  unfold Token.deadline renewalDeadline readTime
  cases hi : Time.Rfc3339.parse t.issuedAt with
  | error fault => exact .inl ⟨t.issuedAt, fault, .inl ⟨rfl, hi⟩, rfl⟩
  | ok issued =>
    cases he : Time.Rfc3339.parse t.expiresAt with
    | error fault => exact .inl ⟨t.expiresAt, fault, .inr ⟨rfl, ⟨issued, hi⟩, he⟩, rfl⟩
    | ok expires => exact .inr ⟨issued, expires, rfl, rfl, rfl⟩

theorem TokenCache.needsRenewal_some (kept : CachedToken) (now : Time.Instant) :
    TokenCache.needsRenewal (some kept) now = kept.token.deadline.map now.after := rfl

def Token.IsTimed (t : Token) : Prop :=
  ∃ issued expires, Time.Rfc3339.parse t.issuedAt = .ok issued ∧
    Time.Rfc3339.parse t.expiresAt = .ok expires

/-- Both of the token's times are timestamps, and `now` comes strictly after the middle between
them. -/
def Token.IsPastHalf (t : Token) (now : Time.Instant) : Prop :=
  ∃ issued expires, Time.Rfc3339.parse t.issuedAt = .ok issued ∧
    Time.Rfc3339.parse t.expiresAt = .ok expires ∧ now.after (issued.midpoint expires) = true

theorem Token.IsPastHalf.isTimed {t : Token} {now : Time.Instant} (h : t.IsPastHalf now) :
    t.IsTimed :=
  let ⟨issued, expires, hi, he, _⟩ := h
  ⟨issued, expires, hi, he⟩

theorem Token.deadline_of_times {t : Token} {issued expires : Time.Instant}
    (hi : Time.Rfc3339.parse t.issuedAt = .ok issued)
    (he : Time.Rfc3339.parse t.expiresAt = .ok expires) :
    t.deadline = .ok (issued.midpoint expires) := by
  unfold deadline renewalDeadline readTime
  rw [hi, he]
  rfl

namespace TokenCache
variable {cache : TokenCache} {now : Time.Instant}

/-- A token is kept, and more than half of its life is over. -/
def IsOverdue (cache : TokenCache) (now : Time.Instant) : Prop :=
  ∃ kept, cache = some kept ∧ kept.token.IsPastHalf now

theorem not_isOverdue_none : ¬ IsOverdue none now :=
  fun ⟨_, h, _⟩ => nomatch h

theorem needsRenewal_of_isOverdue (h : cache.IsOverdue now) : cache.needsRenewal now = .ok true := by
  obtain ⟨kept, rfl, issued, expires, hi, he, hafter⟩ := h
  rw [needsRenewal_some, Token.deadline_of_times hi he, ← hafter]
  rfl

theorem needsRenewal_eq_false_iff : cache.needsRenewal now = .ok false ↔
    ∃ kept, cache = some kept ∧ kept.token.IsTimed ∧ ¬ kept.token.IsPastHalf now := by
  cases cache with
  | none => exact ⟨fun h => (nomatch h), fun ⟨_, h, _⟩ => (nomatch h)⟩
  | some kept =>
    simp only [Option.some.injEq, exists_eq_left', needsRenewal_some]
    constructor
    · intro h
      rcases kept.token.deadline_cases with ⟨_, _, -, hd⟩ | ⟨issued, expires, hi, he, hd⟩
      · rw [hd] at h; cases h
      · refine ⟨⟨issued, expires, hi, he⟩, ?_⟩
        rintro ⟨issued', expires', hi', he', hafter⟩
        cases hi.symm.trans hi'
        cases he.symm.trans he'
        rw [hd] at h
        have : now.after (issued.midpoint expires) = false := Except.ok.inj h
        rw [hafter] at this
        cases this
    · rintro ⟨⟨issued, expires, hi, he⟩, hpast⟩
      have hafter : now.after (issued.midpoint expires) = false := by
        rw [← Bool.not_eq_true]
        exact fun hafter => hpast ⟨issued, expires, hi, he, hafter⟩
      rw [Token.deadline_of_times hi he, ← hafter]
      rfl

end TokenCache

namespace Client
variable {c : Client} {w : World} {now : Time.Instant} {headers : Http.Headers}

theorem keepalive_of_none (h : c.cache = none) :
    c.addAuthenticationKeepalive now headers w = c.addAuthentication headers w := by
  unfold addAuthenticationKeepalive TokenCache.needsRenewal
  simp only [h, Option.isSome_none, Bool.and_false, Bool.false_eq_true, ↓reduceIte]

theorem keepalive_of_error {e : AuthError} (h : c.cache.needsRenewal now = .error e) :
    c.addAuthenticationKeepalive now headers w = (.error e, c, w) := by
  unfold addAuthenticationKeepalive
  rw [h]

theorem keepalive_of_fresh (h : c.cache.needsRenewal now = .ok false) :
    c.addAuthenticationKeepalive now headers w = c.addAuthentication headers w := by
  unfold addAuthenticationKeepalive
  simp only [h, Bool.false_and, Bool.false_eq_true, ↓reduceIte]

theorem keepalive_of_stale {kept : CachedToken} (hc : c.cache = some kept)
    (h : c.cache.needsRenewal now = .ok true) :
    c.addAuthenticationKeepalive now headers w =
      c.invalidate.addAuthentication headers w.renewing := by
  unfold addAuthenticationKeepalive World.renewing
  simp only [h]
  simp only [hc, Option.isSome_some, Bool.and_self, ↓reduceIte]

/-- A token past half its life is dropped, and the request goes the way of a client without one. -/
theorem keepalive_of_isOverdue (h : c.cache.IsOverdue now) :
    c.addAuthenticationKeepalive now headers w =
      c.invalidate.addAuthentication headers w.renewing := by
  obtain ⟨kept, hc, -⟩ := id h
  exact keepalive_of_stale hc (TokenCache.needsRenewal_of_isOverdue h)

/-- A token that is not past half its life is left to the lazy way. -/
theorem keepalive_of_not_isOverdue (htimed : ∀ kept, c.cache = some kept → kept.token.IsTimed)
    (h : ¬ c.cache.IsOverdue now) :
    c.addAuthenticationKeepalive now headers w = c.addAuthentication headers w := by
  cases hc : c.cache with
  | none => exact keepalive_of_none hc
  | some kept =>
    refine keepalive_of_fresh (TokenCache.needsRenewal_eq_false_iff.2 ⟨kept, hc, htimed kept hc, ?_⟩)
    exact fun hpast => h ⟨kept, hc, hpast⟩

end Client

namespace Session

/-- What is seen of a request on which an id is to be put: the headers apart from those for a token, and
behind them a sensitive one with the bytes of the id. If one of the bytes is a control the id is refused,
and the request stays as it was. -/
inductive Injects (headers : Http.Headers) (id : String) : Outcome → Prop
  | put (hid : ∀ b ∈ Text.Utf8.encode id, ¬ Http.IsControl b) :
      Injects headers id (.authenticated (.ok ()) ((headers.filter fun h => h.name ≠ "x-auth-token") ++
        [⟨"x-auth-token", Text.Utf8.encode id, true⟩]))
  | refused (hid : ∃ b ∈ Text.Utf8.encode id, Http.IsControl b) :
      Injects headers id
        (.authenticated (.error (.invalidHeader "failed to parse header value")) headers)

theorem injects_withToken (headers : Http.Headers) (id : String) :
    Injects headers id (seen headers (Client.withToken headers id)) := by
  unfold Client.withToken
  cases hvalue : Http.headerValue? id with
  | none => exact .refused (Http.headerValue?_eq_none_iff.1 hvalue)
  | some value =>
    obtain ⟨rfl, hid⟩ := Http.headerValue?_eq_some_iff.1 hvalue
    have hothers : (headers.filter fun h => h.name != "x-auth-token") =
        headers.filter fun h => h.name ≠ "x-auth-token" :=
      List.filter_congr fun h _ => by simp [bne, beq_eq_decide]
    have hput : Injects headers id _ := .put hid
    rw [← hothers] at hput
    exact hput

/-- One exchange is run for a request by the client `c`, which holds no token, in the world `w`. -/
structure Obtains (c : Client) (w : World) (headers : Http.Headers) (outcome : Outcome)
    (after : Session) : Prop where
  /-- The world is as that exchange leaves it; only its requests reach the peer. -/
  world : after.world = (c.authenticator.authenticate w).2.2
  received : after.world.received = w.received ++ (c.authenticator.exchanged w.peer).received
  authenticator : after.client.authenticator = (c.authenticator.authenticate w).2.1
  attempts : after.world.metrics.attempts = w.metrics.attempts + 1
  refreshes : after.world.metrics.refreshes = w.metrics.refreshes
  /-- The new token is kept and put on the request. -/
  ok : ∀ token, (c.authenticator.authenticate w).1 = .ok token →
    after.client.cache = some ⟨token, c.authenticator.credentials.protocol⟩ ∧
      Injects headers token.id outcome
  /-- Without a new token there is none, and the request stays as it was. -/
  error : ∀ e, (c.authenticator.authenticate w).1 = .error e →
    after.client.cache = none ∧ outcome = .authenticated (.error e) headers

theorem obtains_of_authenticate {c : Client} {w : World} {headers : Http.Headers} {after : Session}
    (h : c.cache = none) (hc : after.client = (c.authenticate w).2.1)
    (hw : after.world = (c.authenticate w).2.2) :
    Obtains c w headers (seen headers (c.addAuthentication headers w).1) after := by
  have hworld : after.world = (c.authenticator.authenticate w).2.2 := hw.trans (c.authenticate_world w)
  refine ⟨hworld, ?_, ?_, ?_, ?_, fun token ht => ?_, fun e he => ?_⟩
  · rw [hworld, Authenticator.authenticate_eq]
  · rw [hc, c.authenticate_authenticator, Authenticator.authenticate_authenticator]
  · rw [hworld, Authenticator.authenticate_eq, Authenticator.counted_attempts]
  · rw [hworld, Authenticator.authenticate_eq, Authenticator.counted_refreshes]
  · obtain ⟨hr, hcache⟩ := c.authenticate_ok w ht
    refine ⟨by rw [hc, hcache], ?_⟩
    have hinject : (c.addAuthentication headers w).1 = Client.withToken headers token.id := by
      rw [c.addAuthentication_of_none w h, hr]
      simp only [Except.bind, Client.inject, hcache]
    rw [hinject]
    exact injects_withToken headers token.id
  · obtain ⟨hr, hcache⟩ := c.authenticate_error w he
    refine ⟨by rw [hc, hcache, h], ?_⟩
    rw [c.addAuthentication_of_none w h, hr]
    rfl

/-- Asks neither for a new token nor for the old one to be dropped. -/
def leavesToken : Operation → Bool
  | .authenticate | .invalidate => false
  | _ => true

/-- The outcome where the token's times are needed but malformed. -/
def Refused (e : AuthError) : Operation → Outcome → Prop
  | .addAuthentication headers, outcome => outcome = .authenticated (.error e) headers
  | .needsRenewal, outcome => outcome = .judged (.error e)
  | _, _ => True

/-- What is seen of a step of a client that refuses its token `kept` with the error `e`. -/
structure Refuses (kept : CachedToken) (e : AuthError) (step : Surroundings × Operation) (v : View) :
    Prop where
  cache : v.cache = some kept
  received : v.received = []
  outcome : Refused e step.2 v.outcome

theorem addAuthentication_of_deadline_error {s : Session} {kept : CachedToken} {e : AuthError}
    (hk : s.kind = .keepalive) (hc : s.client.cache = some kept)
    (he : kept.token.deadline = .error e) (now : Time.Instant) (headers : Http.Headers) :
    s.addAuthentication now headers = (.error e, s.client, s.world) := by
  unfold addAuthentication
  rw [hk]
  refine Client.keepalive_of_error ?_
  rw [hc, TokenCache.needsRenewal_some, he]
  rfl

theorem refuses_of_step {s after : Session} {kept : CachedToken} {e : AuthError}
    {around : Surroundings} {o : Operation} (h : (s.step around o).2 = after)
    (hc : after.client.cache = some kept) (hr : after.world.received = s.world.received)
    (ho : Refused e o (s.step around o).1) : Refuses kept e (around, o) (s.observe around o).1 := by
  have hcache : (s.observe around o).1.cache = (s.step around o).2.client.cache := rfl
  have hreceived : (s.observe around o).1.received =
      (s.step around o).2.world.received.drop s.world.received.length := rfl
  refine ⟨by rw [hcache, h, hc], ?_, ho⟩
  rw [hreceived, h, hr, List.drop_length]

/-- A client that refuses its token goes on to do so. -/
theorem refuses_step {s : Session} {kept : CachedToken} {e : AuthError} (hk : s.kind = .keepalive)
    (hc : s.client.cache = some kept) (he : kept.token.deadline = .error e) (around : Surroundings)
    {o : Operation} (ho : leavesToken o = true) :
    ((s.step around o).2.kind = .keepalive ∧ (s.step around o).2.client.cache = some kept) ∧
      Refuses kept e (around, o) (s.observe around o).1 := by
  cases o with
  | authenticate => cases ho
  | invalidate => cases ho
  | addAuthentication headers =>
    have h := s.step_addAuthentication around headers
    rw [addAuthentication_of_deadline_error hk hc he] at h
    have hafter : (s.step around (.addAuthentication headers)).2 = s := by rw [h]
    exact ⟨by rw [hafter]; exact ⟨hk, hc⟩, refuses_of_step hafter hc rfl (by rw [h]; rfl)⟩
  | needsRenewal =>
    refine ⟨⟨hk, hc⟩, refuses_of_step rfl hc rfl ?_⟩
    show Outcome.judged (s.client.cache.needsRenewal around.now) = _
    rw [hc, TokenCache.needsRenewal_some, he]
    rfl
  | addEncryption tls =>
    have heffect := s.step_effect around (.addEncryption tls)
    generalize hafter : (s.step around (.addEncryption tls)).2 = after at heffect
    cases heffect with
    | quiet => exact ⟨⟨hk, hc⟩, refuses_of_step hafter hc rfl trivial⟩
    | configured => exact ⟨⟨hk, hc⟩, refuses_of_step hafter hc rfl trivial⟩
    | exchanged h => cases h
  | display => exact ⟨⟨hk, hc⟩, refuses_of_step rfl hc rfl trivial⟩
  | metrics => exact ⟨⟨hk, hc⟩, refuses_of_step rfl hc rfl trivial⟩

/-- As long as the token is neither dropped nor replaced, every step refuses it. -/
theorem refuses_run {kept : CachedToken} {e : AuthError} (he : kept.token.deadline = .error e)
    (steps : List (Surroundings × Operation)) (hsteps : ∀ step ∈ steps, leavesToken step.2 = true)
    {s : Session} (hk : s.kind = .keepalive) (hc : s.client.cache = some kept) :
    List.Forall₂ (Refuses kept e) steps (s.run steps).1 := by
  induction steps generalizing s with
  | nil => exact .nil
  | cons step rest ih =>
    obtain ⟨⟨hk', hc'⟩, hrefuses⟩ := refuses_step hk hc he step.1 (hsteps step List.mem_cons_self)
    exact .cons hrefuses (ih (fun step h => hsteps step (List.mem_cons_of_mem _ h)) hk' hc')

variable {client : Client} (world : World)

theorem step_keepalive (client : Client) (around : Surroundings)
    (headers : Http.Headers) :
    (Session.mk .keepalive client world).step around (.addAuthentication headers) =
      (seen headers (client.addAuthenticationKeepalive around.now headers world).1,
        ⟨.keepalive, (client.addAuthenticationKeepalive around.now headers world).2.1,
          (client.addAuthenticationKeepalive around.now headers world).2.2⟩) :=
  step_addAuthentication ⟨.keepalive, client, world⟩ around headers

theorem obtains_of_none (hc : client.cache = none) (around : Surroundings) (headers : Http.Headers) :
    let asked := (Session.mk .keepalive client world).step around (.addAuthentication headers)
    Obtains client world headers asked.1 asked.2 := by
  have hstep := step_keepalive world client around headers
  rw [Client.keepalive_of_none hc] at hstep
  intro asked
  have hafter : asked.2 =
      ⟨.keepalive, (client.authenticate world).2.1, (client.authenticate world).2.2⟩ := by
    rw [← client.addAuthentication_of_none_snd world hc headers]
    exact congrArg Prod.snd hstep
  have hobtains : Obtains client world headers _ asked.2 :=
    obtains_of_authenticate hc (by rw [hafter]) (by rw [hafter])
  exact (congrArg Prod.fst hstep : asked.1 = _) ▸ hobtains

/-- Past half its life a token is dropped first, and then one is obtained. -/
theorem obtains_of_isOverdue {around : Surroundings} (h : client.cache.IsOverdue around.now)
    (headers : Http.Headers) :
    let asked := (Session.mk .keepalive client world).step around (.addAuthentication headers)
    Obtains client.invalidate world.renewing headers asked.1 asked.2 := by
  have hdropped := step_keepalive world.renewing client.invalidate around headers
  have hnone : client.invalidate.cache = none := rfl
  rw [Client.keepalive_of_none hnone, ← Client.keepalive_of_isOverdue h,
    ← step_keepalive world client around headers] at hdropped
  exact hdropped ▸ obtains_of_none world.renewing hnone around headers

/-- A token of which no more than half the life is over is put on the request. -/
theorem injects_of_fresh {kept : CachedToken} {around : Surroundings} (hc : client.cache = some kept)
    (h : client.cache.needsRenewal around.now = .ok false) (headers : Http.Headers) :
    let asked := (Session.mk .keepalive client world).step around (.addAuthentication headers)
    Injects headers kept.token.id asked.1 ∧ asked.2 = ⟨.keepalive, client, world⟩ := by
  have hstep := step_keepalive world client around headers
  rw [Client.keepalive_of_fresh h, client.addAuthentication_of_kept world hc] at hstep
  rw [hstep]
  exact ⟨injects_withToken headers kept.token.id, rfl⟩

/-- A token whose times cannot be read is refused, and so it is for good. -/
theorem refuses_of_malformed {kept : CachedToken} {e : AuthError} (hc : client.cache = some kept)
    (he : kept.token.deadline = .error e) (around : Surroundings) (headers : Http.Headers) :
    let s : Session := ⟨.keepalive, client, world⟩
    s.step around (.addAuthentication headers) = (.authenticated (.error e) headers, s) ∧
      ∀ steps, (∀ step ∈ steps, leavesToken step.2 = true) →
        List.Forall₂ (Refuses kept e) steps (s.run steps).1 := by
  intro s
  have hneeds : client.cache.needsRenewal around.now = .error e := by
    rw [hc, TokenCache.needsRenewal_some, he]
    rfl
  have hstep := step_keepalive world client around headers
  rw [Client.keepalive_of_error hneeds] at hstep
  exact ⟨hstep, fun steps hsteps => refuses_run he steps hsteps rfl hc⟩

/-- A keepalive client that is asked to put its token on a request takes one of four courses: it
obtains a token, refuses the one it has for good, puts it on as it is, or replaces it first. -/
theorem keepalive_addAuthentication_course (client : Client) (world : World) (around : Surroundings)
    (headers : Http.Headers) :
    let s : Session := ⟨.keepalive, client, world⟩
    let outcome := (s.step around (.addAuthentication headers)).1
    let after := (s.step around (.addAuthentication headers)).2
    (client.cache = none ∧ Obtains client world headers outcome after) ∨
    (∃ kept value fault, client.cache = some kept ∧ kept.token.Malformed value fault ∧
      outcome = .authenticated (.error (.timeParse value fault)) headers ∧ after = s ∧
      ∀ steps, (∀ step ∈ steps, leavesToken step.2 = true) →
        List.Forall₂ (Refuses kept (.timeParse value fault)) steps (after.run steps).1) ∨
    (∃ kept issued expires, client.cache = some kept ∧
      Time.Rfc3339.parse kept.token.issuedAt = .ok issued ∧
      Time.Rfc3339.parse kept.token.expiresAt = .ok expires ∧
      around.now.after (issued.midpoint expires) = false ∧
      Injects headers kept.token.id outcome ∧ after = s) ∨
    (∃ kept issued expires, client.cache = some kept ∧
      Time.Rfc3339.parse kept.token.issuedAt = .ok issued ∧
      Time.Rfc3339.parse kept.token.expiresAt = .ok expires ∧
      around.now.after (issued.midpoint expires) = true ∧
      after.world.metrics.refreshes = world.metrics.refreshes + 1 ∧
      Obtains client.invalidate world.renewing headers outcome after) := by
  intro s outcome after
  cases hc : client.cache with
  | none => exact .inl ⟨rfl, obtains_of_none world hc around headers⟩
  | some kept =>
    rcases kept.token.deadline_cases with
      ⟨value, fault, hmalformed, hd⟩ | ⟨issued, expires, hissued, hexpires, hd⟩
    · obtain ⟨hstep, hrun⟩ := refuses_of_malformed world hc hd around headers
      have hafter : after = s := congrArg Prod.snd hstep
      exact .inr (.inl ⟨kept, value, fault, rfl, hmalformed, congrArg Prod.fst hstep, hafter,
        hafter ▸ hrun⟩)
    · have hneeds : client.cache.needsRenewal around.now =
          .ok (around.now.after (issued.midpoint expires)) := by
        rw [hc, TokenCache.needsRenewal_some, hd]
        rfl
      cases hnow : around.now.after (issued.midpoint expires) with
      | false =>
        obtain ⟨hinjects, hafter⟩ := injects_of_fresh world hc (hnow ▸ hneeds) headers
        exact .inr (.inr (.inl ⟨kept, issued, expires, rfl, hissued, hexpires, hnow, hinjects, hafter⟩))
      | true =>
        have hobtains := obtains_of_isOverdue world
          ⟨kept, hc, issued, expires, hissued, hexpires, hnow⟩ headers
        exact .inr (.inr (.inr ⟨kept, issued, expires, rfl, hissued, hexpires, hnow,
          hobtains.refreshes, hobtains⟩))

end Session

end TokenKeeper
