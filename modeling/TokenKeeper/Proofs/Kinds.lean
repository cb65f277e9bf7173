import TokenKeeper.Proofs.Renewal

/-!
# The two kinds of client

A keepalive client is a lazy one that sometimes drops its token first. Asked for a token that is
absent or not past half its life, it does what the lazy client does; past half its life, it does what
the lazy client does when it is told to drop the token and then asked for one, and counts that. All
else is the same for both kinds, so as long as no token is asked for too late, no run tells the two
apart (`Session.keepalive_refines_onDemand`).
-/

namespace TokenKeeper

theorem World.log_log (w : World) (first second : List LogRecord) :
    (w.log first).log second = w.log (first ++ second) := by
  unfold World.log
  rw [List.append_assoc]

/-- The world in which so many tokens have been dropped at half their life. -/
def World.withRefreshes (w : World) (n : Nat) : World :=
  { w with metrics := { w.metrics with refreshes := n } }

theorem World.count_countRefresh (w : World) :
    w.count Metrics.countRefresh = w.withRefreshes (w.metrics.refreshes + 1) := rfl

theorem Authenticator.counted_countRefresh (a : Authenticator) (outcome : Except AuthError Token)
    (m : Metrics) : a.counted outcome m.countRefresh = (a.counted outcome m).countRefresh := by
  unfold counted countOutcome
  cases outcome with
  | error _ => rfl
  | ok t => dsimp only; cases readTime t.expiresAt <;> rfl

theorem Authenticator.authenticate_count (a : Authenticator) (w : World) :
    a.authenticate (w.count Metrics.countRefresh) =
      ((a.authenticate w).1, (a.authenticate w).2.1,
        (a.authenticate w).2.2.count Metrics.countRefresh) := by
  rw [authenticate_eq, authenticate_eq]
  simp only [World.count, counted_countRefresh]

namespace Client
variable (c : Client) (w : World)

theorem authenticate_count :
    c.authenticate (w.count Metrics.countRefresh) =
      ((c.authenticate w).1, (c.authenticate w).2.1,
        (c.authenticate w).2.2.count Metrics.countRefresh) := by
  unfold authenticate
  rw [Authenticator.authenticate_count]
  generalize c.authenticator.authenticate w = r
  obtain ⟨_ | _, _, _⟩ := r <;> rfl

theorem addAuthentication_count (headers : Http.Headers) :
    c.addAuthentication headers (w.count Metrics.countRefresh) =
      ((c.addAuthentication headers w).1, (c.addAuthentication headers w).2.1,
        (c.addAuthentication headers w).2.2.count Metrics.countRefresh) := by
  cases hc : c.cache with
  | some kept => rw [c.addAuthentication_of_kept _ hc, c.addAuthentication_of_kept _ hc]
  | none =>
    rw [c.addAuthentication_of_none _ hc, c.addAuthentication_of_none _ hc, authenticate_count]

end Client

namespace Session

/-- The same client and world, under another kind of client. -/
def withKind (s : Session) (kind : ClientKind) : Session := { s with kind }

/-- A token can be asked for in time: one that is kept has timestamps and is not past half its
life. -/
def IsInTime (s : Session) (now : Time.Instant) : Prop :=
  (∀ kept, s.client.cache = some kept → kept.token.IsTimed) ∧ ¬ s.client.cache.IsOverdue now

/-- Whenever the token is asked for in the run, it is in time. -/
def AsksInTime : Session → List (Surroundings × Operation) → Prop
  | _, [] => True
  | s, (around, o) :: rest =>
    (∀ headers, o = .addAuthentication headers → s.IsInTime around.now) ∧
      AsksInTime (s.step around o).2 rest

variable {s : Session}

theorem isInTime_of_needsRenewal {now : Time.Instant}
    (h : s.client.cache.needsRenewal now = .ok false) : s.IsInTime now := by
  obtain ⟨kept, hc, htimed, hpast⟩ := TokenCache.needsRenewal_eq_false_iff.1 h
  constructor
  · intro other hother
    cases hc.symm.trans hother
    exact htimed
  · rintro ⟨other, hother, hother'⟩
    cases hc.symm.trans hother
    exact hpast hother'

theorem addAuthentication_of_isInTime {now : Time.Instant} (h : s.IsInTime now)
    (headers : Http.Headers) :
    s.addAuthentication now headers = s.client.addAuthentication headers s.world := by
  unfold addAuthentication
  cases s.kind with
  | onDemand => rfl
  | keepalive => exact Client.keepalive_of_not_isOverdue h.1 h.2

theorem step_withKind {around : Surroundings} {o : Operation}
    (h : ∀ headers, o = .addAuthentication headers → s.IsInTime around.now) (kind : ClientKind) :
    (s.withKind kind).step around o = ((s.step around o).1, (s.step around o).2.withKind kind) := by
  cases o with
  | addAuthentication headers =>
    have hs := h headers rfl
    have hkind : (s.withKind kind).IsInTime around.now := hs
    simp only [step_addAuthentication, addAuthentication_of_isInTime hs,
      addAuthentication_of_isInTime hkind]
    simp only [withKind]
  | authenticate => simp only [step_authenticate, withKind]
  | addEncryption tls =>
    cases ht : s.client.transport.configure around.files tls with
    | ok t =>
      rw [step_addEncryption_ok ht, step_addEncryption_ok (s := s.withKind kind) ht]
      rfl
    | error e =>
      rw [step_addEncryption_error ht, step_addEncryption_error (s := s.withKind kind) ht]
      rfl
  | needsRenewal | invalidate | display | metrics => rfl

theorem run_withKind {steps : List (Surroundings × Operation)} (h : s.AsksInTime steps)
    (kind : ClientKind) :
    (s.withKind kind).run steps = ((s.run steps).1, (s.run steps).2.withKind kind) := by
  induction steps generalizing s with
  | nil => rfl
  | cons step rest ih =>
    obtain ⟨around, o⟩ := step
    have hobserve : (s.withKind kind).observe around o =
        ((s.observe around o).1, (s.observe around o).2.withKind kind) := by
      unfold observe
      rw [step_withKind h.1]
      rfl
    unfold run
    rw [hobserve]
    dsimp only
    rw [ih (s := (s.observe around o).2) h.2]

/-- Past half its life a token is dropped as if the client had been told to, and the request goes on
as for the lazy kind. -/
theorem step_keepalive_of_isOverdue {c : Client} {w : World} {around : Surroundings}
    (h : c.cache.IsOverdue around.now) (headers : Http.Headers) :
    let dropped := ((mk .onDemand c (w.log [Client.renewRecord])).step around .invalidate).2
    let added := dropped.step around (.addAuthentication headers)
    (mk .keepalive c w).step around (.addAuthentication headers) =
      (added.1, ⟨.keepalive, added.2.client,
        added.2.world.withRefreshes (added.2.world.metrics.refreshes + 1)⟩) := by
  have hdropped : ((mk .onDemand c (w.log [Client.renewRecord])).step around .invalidate).2 =
      ⟨.onDemand, c.invalidate, w.log [Client.renewRecord, Client.invalidateRecord]⟩ :=
    congrArg (mk .onDemand c.invalidate) (w.log_log _ _)
  have honDemand : (mk .onDemand c.invalidate
      (w.log [Client.renewRecord, Client.invalidateRecord])).addAuthentication around.now headers =
        c.invalidate.addAuthentication headers
          (w.log [Client.renewRecord, Client.invalidateRecord]) := rfl
  have hkeepalive : (mk .keepalive c w).addAuthentication around.now headers =
      c.invalidate.addAuthentication headers w.renewing :=
    Client.keepalive_of_isOverdue h
  intro dropped added
  rw [← World.count_countRefresh]
  simp only [added, dropped, hdropped, step_addAuthentication, honDemand, hkeepalive,
    World.renewing, Client.addAuthentication_count]

/-- Asked for a token while its times can be read, a keepalive client does what the lazy one does,
unless the token is past half its life; then it does what the lazy one does when it is told to drop
the token first, writes down why, and counts it. So in every run in which each token that is asked for
is in time, the two kinds show the same and end up the same. -/
theorem keepalive_refines_onDemand (c : Client) (w : World) :
    (∀ around headers, (∀ kept, c.cache = some kept → kept.token.IsTimed) →
      let keepalive := (mk .keepalive c w).step around (.addAuthentication headers)
      let onDemand := (mk .onDemand c w).step around (.addAuthentication headers)
      let dropped := ((mk .onDemand c (w.log [Client.renewRecord])).step around .invalidate).2
      let added := dropped.step around (.addAuthentication headers)
      (¬ c.cache.IsOverdue around.now →
        keepalive = (onDemand.1, ⟨.keepalive, onDemand.2.client, onDemand.2.world⟩)) ∧
      (c.cache.IsOverdue around.now →
        keepalive = (added.1, ⟨.keepalive, added.2.client,
          added.2.world.withRefreshes (added.2.world.metrics.refreshes + 1)⟩))) ∧
    (∀ kind steps, AsksInTime ⟨kind, c, w⟩ steps →
      let keepalive := (mk .keepalive c w).run steps
      let onDemand := (mk .onDemand c w).run steps
      keepalive.1 = onDemand.1 ∧ keepalive.2.client = onDemand.2.client ∧
        keepalive.2.world = onDemand.2.world) := by
  refine ⟨fun around headers htimed => ⟨fun h => ?_, fun h => ?_⟩, fun kind steps h => ?_⟩
  · exact step_withKind (s := mk .onDemand c w) (fun _ _ => ⟨htimed, h⟩) .keepalive
  · exact step_keepalive_of_isOverdue h headers
  · have hkeepalive := run_withKind h .keepalive
    have honDemand := run_withKind h .onDemand
    simp only [withKind] at hkeepalive honDemand
    intro keepalive onDemand
    simp only [keepalive, onDemand, hkeepalive, honDemand, and_self]

/-- A client with a token of the year 2000. -/
def agedClient : Client :=
  { Client.new ⟨"http://keystone", .v3, "", "demo", "admin", "secret", none, "Default", ""⟩ true with
    cache := some ⟨⟨"old", "2000-01-01T00:00:00Z", "2000-01-02T00:00:00Z"⟩, .v3⟩ }

/-- A peer that issues a token for a thousand years. -/
def issuingWorld : World :=
  .start ⟨true, [], [], [.of 201 [.of subjectToken (Text.Utf8.encode "new")] (Text.Utf8.encode
    ("\x7b\"token\":\x7b\"issued_at\":\"2000-01-01T00:00:00Z\"," ++
      "\"expires_at\":\"3000-01-01T00:00:00Z\"\x7d\x7d")) true]⟩

def in2023 : Surroundings := ⟨[], ⟨1700000000, 0⟩⟩

/-- The aged token is replaced as the lazy kind does it, and once it has been, both kinds of client put
the new one on a request. -/
theorem keepalive_refines_aged :
    let steps := [(in2023, Operation.authenticate), (in2023, .addAuthentication [])]
    agedClient.cache.IsOverdue in2023.now ∧
      (∃ added, added = ((mk .onDemand agedClient (issuingWorld.log [Client.renewRecord])).step in2023
          .invalidate).2.step in2023 (.addAuthentication []) ∧
        (mk .keepalive agedClient issuingWorld).step in2023 (.addAuthentication []) =
          (added.1, ⟨.keepalive, added.2.client,
            added.2.world.withRefreshes (added.2.world.metrics.refreshes + 1)⟩)) ∧
      AsksInTime ⟨.keepalive, agedClient, issuingWorld⟩ steps ∧
      ((mk .keepalive agedClient issuingWorld).run steps).1 =
        ((mk .onDemand agedClient issuingWorld).run steps).1 := by
  intro steps
  have hissued : Time.Rfc3339.parse "2000-01-01T00:00:00Z" = .ok ⟨946684800, 0⟩ :=
    ok_of_toOption (by decide +kernel)
  have hexpires : Time.Rfc3339.parse "2000-01-02T00:00:00Z" = .ok ⟨946771200, 0⟩ :=
    ok_of_toOption (by decide +kernel)
  have hdue : agedClient.cache.IsOverdue in2023.now :=
    ⟨_, rfl, _, _, hissued, hexpires, by decide +kernel⟩
  have htimed : ∀ kept, agedClient.cache = some kept → kept.token.IsTimed := by
    rintro _ ⟨⟩
    exact ⟨_, _, hissued, hexpires⟩
  have hnew : ((mk .keepalive agedClient issuingWorld).step in2023
      .authenticate).2.client.cache.needsRenewal in2023.now = .ok false :=
    ok_of_toOption (by decide +kernel)
  have hasks : AsksInTime ⟨.keepalive, agedClient, issuingWorld⟩ steps :=
    ⟨fun _ h => (nomatch h), fun _ _ => isInTime_of_needsRenewal hnew, trivial⟩
  have hrefines := keepalive_refines_onDemand agedClient issuingWorld
  exact ⟨hdue, ⟨_, rfl, (hrefines.1 in2023 [] htimed).2 hdue⟩, hasks,
    (hrefines.2 .keepalive steps hasks).1⟩

end Session

end TokenKeeper
