import TokenKeeper.Proofs.Conclusion
import TokenKeeper.Proofs.Renewal

/-!
# The token that a client keeps

What is kept after a run can be read off the run: the token of the last exchange that succeeded, and
nothing if a step after it dropped the token (`Session.LastIssued`). A step issues a token if it runs
an exchange whose final response grants it (`Session.Issues`), so all its texts come from one response;
a step drops the token if it is told to, or if a keepalive client is asked for one that is past half
its life (`Session.Drops`). The drop comes before the exchange of the same step, so a step that does
both leaves the new token. Every other step keeps what is there, a failed exchange included.
-/

namespace TokenKeeper

namespace Session

/-- What a request for the token comes down to: the lazy way without a token, a refusal of the token's
times, the token that is kept, or the lazy way with the token dropped. -/
theorem addAuthentication_cases (s : Session) (now : Time.Instant) (headers : Http.Headers) :
    (s.client.cache = none ∧
      s.addAuthentication now headers = s.client.addAuthentication headers s.world) ∨
    (∃ kept value fault, s.client.cache = some kept ∧ s.kind = .keepalive ∧ ¬ kept.token.IsTimed ∧
      s.addAuthentication now headers = (.error (.timeParse value fault), s.client, s.world)) ∨
    (∃ kept, s.client.cache = some kept ∧
      (s.kind = .keepalive → kept.token.IsTimed ∧ ¬ s.client.cache.IsOverdue now) ∧
      s.addAuthentication now headers =
        (Client.withToken headers kept.token.id, s.client, s.world)) ∨
    ((s.kind = .keepalive ∧ s.client.cache.IsOverdue now) ∧
      s.addAuthentication now headers =
        s.client.invalidate.addAuthentication headers s.world.renewing) := by
  unfold addAuthentication
  cases hc : s.client.cache with
  | none =>
    refine .inl ⟨rfl, ?_⟩
    cases s.kind with
    | onDemand => rfl
    | keepalive => exact Client.keepalive_of_none hc
  | some kept =>
    right
    cases hk : s.kind with
    | onDemand =>
      exact .inr (.inl ⟨kept, rfl, fun h => (nomatch h), s.client.addAuthentication_of_kept _ hc _⟩)
    | keepalive =>
      rcases kept.token.deadline_cases with ⟨value, fault, -, hd⟩ | ⟨issued, expires, hi, he, -⟩
      · have herror : s.client.cache.needsRenewal now = .error (.timeParse value fault) := by
          rw [hc, TokenCache.needsRenewal_some, hd]; rfl
        refine .inl ⟨kept, value, fault, rfl, rfl, ?_, Client.keepalive_of_error herror⟩
        rintro ⟨issued, expires, hi, he⟩
        rw [Token.deadline_of_times hi he] at hd
        cases hd
      · right
        have htimed : kept.token.IsTimed := ⟨issued, expires, hi, he⟩
        by_cases hdue : s.client.cache.IsOverdue now
        · exact .inr ⟨⟨rfl, hc ▸ hdue⟩, Client.keepalive_of_isOverdue hdue⟩
        · refine .inl ⟨kept, rfl, fun _ => ⟨htimed, hc ▸ hdue⟩, ?_⟩
          dsimp only
          rw [Client.keepalive_of_not_isOverdue (fun _ h => by cases hc.symm.trans h; exact htimed)
            hdue, s.client.addAuthentication_of_kept _ hc]

/-- Putting the token on a request runs an exchange for a client without one, hands out the token
that is kept, or replaces it because half its life is over. -/
theorem addAuthentication_course (s : Session) (now : Time.Instant) (headers : Http.Headers) :
    (s.client.cache = none ∧
      (s.addAuthentication now headers).2 = (s.client.authenticate s.world).2) ∨
    (s.client.cache ≠ none ∧ ¬ (s.kind = .keepalive ∧ s.client.cache.IsOverdue now) ∧
      (s.addAuthentication now headers).2 = (s.client, s.world)) ∨
    ((s.kind = .keepalive ∧ s.client.cache.IsOverdue now) ∧
      (s.addAuthentication now headers).2 = (s.client.invalidate.authenticate s.world.renewing).2) := by
  rcases s.addAuthentication_cases now headers with
    ⟨hc, h⟩ | ⟨kept, _, _, hc, -, htimed, h⟩ | ⟨kept, hc, hfresh, h⟩ | ⟨hdue, h⟩
  · exact .inl ⟨hc, by rw [h]; exact s.client.addAuthentication_of_none_snd s.world hc headers⟩
  · refine .inr (.inl ⟨by rw [hc]; exact Option.some_ne_none _, ?_, by rw [h]⟩)
    rintro ⟨-, kept', hc', hpast⟩
    cases hc.symm.trans hc'
    exact htimed hpast.isTimed
  · refine .inr (.inl ⟨by rw [hc]; exact Option.some_ne_none _, ?_, by rw [h]⟩)
    exact fun hdue => (hfresh hdue.1).2 hdue.2
  · refine .inr (.inr ⟨hdue, ?_⟩)
    rw [h]
    exact s.client.invalidate.addAuthentication_of_none_snd s.world.renewing rfl headers

/-- The final response to an exchange of the client as it is grants the token. -/
def Offers (s : Session) (token : Token) : Prop :=
  ∃ r, (s.client.authenticator.exchanged s.world.peer).outcome = .ok r ∧ r.isComplete = true ∧
    s.client.authenticator.strategy.Grants r token

theorem offers_iff {s : Session} {token : Token} :
    s.Offers token ↔ s.client.authenticator.strategy.conclude
      (s.client.authenticator.exchanged s.world.peer).outcome = .ok token :=
  Strategy.conclude_eq_ok_iff.symm

/-- The step runs an exchange, and it succeeds with the token. -/
structure Issues (s : Session) (around : Surroundings) (o : Operation) (token : Token) : Prop where
  begun : (s.step around o).2.world.metrics.attempts = s.world.metrics.attempts + 1
  offered : s.Offers token

/-- The step drops the token: it is told to, or asked for one that is past half its life. -/
def Drops (s : Session) (around : Surroundings) : Operation → Prop
  | .invalidate => True
  | .addAuthentication _ => s.kind = .keepalive ∧ s.client.cache.IsOverdue around.now
  | _ => False

/-- No step of the run issues a token or drops one. -/
def Untouched : Session → List (Surroundings × Operation) → Prop
  | _, [] => True
  | s, (around, o) :: rest =>
    (∀ token, ¬ s.Issues around o token) ∧ ¬ s.Drops around o ∧ Untouched (s.step around o).2 rest

/-- A step of the run issues the token, and the rest of the run issues no other and drops none. -/
def LastIssued (first : Session) (steps : List (Surroundings × Operation)) (token : Token) : Prop :=
  ∃ before around o after, steps = before ++ (around, o) :: after ∧
    (first.run before).2.Issues around o token ∧
    Untouched ((first.run before).2.step around o).2 after

theorem step_credentials (s : Session) (around : Surroundings) (o : Operation) :
    (s.step around o).2.client.authenticator.credentials = s.client.authenticator.credentials := by
  have heffect := s.step_effect around o
  generalize (s.step around o).2 = after at heffect
  cases heffect with
  | quiet | dropped | configured => rfl
  | exchanged _ hp =>
    dsimp only
    rw [Client.authenticate_authenticator, hp.authenticator, Authenticator.prepared_credentials]

theorem run_credentials (s : Session) (steps : List (Surroundings × Operation)) :
    (s.run steps).2.client.authenticator.credentials = s.client.authenticator.credentials :=
  run_keeps
    (P := fun after => after.client.authenticator.credentials = s.client.authenticator.credentials)
    (fun after around o h => (after.step_credentials around o).trans h) rfl steps

/-- The cache after an exchange holds the token on offer; without one it is as it was before. -/
theorem Prepares.cache_authenticate {s : Session} {c : Client} {w : World} (hp : s.Prepares c w) :
    (∃ token, s.Offers token ∧
      (c.authenticate w).2.1.cache = some ⟨token, s.client.authenticator.credentials.protocol⟩) ∨
    ((∀ token, ¬ s.Offers token) ∧ (c.authenticate w).2.1.cache = c.cache) := by
  have hresult : (c.authenticator.authenticate w).1 =
      s.client.authenticator.strategy.conclude
        (s.client.authenticator.exchanged s.world.peer).outcome := by
    rw [Authenticator.authenticate_outcome, hp.authenticator, hp.peer]
  cases hconclude : s.client.authenticator.strategy.conclude
      (s.client.authenticator.exchanged s.world.peer).outcome with
  | ok token =>
    refine .inl ⟨token, offers_iff.2 hconclude, ?_⟩
    rw [← hp.authenticator]
    exact (c.authenticate_ok w (hresult.trans hconclude)).2
  | error e =>
    refine .inr ⟨fun token h => ?_, (c.authenticate_error w (hresult.trans hconclude)).2⟩
    rw [offers_iff.1 h] at hconclude
    cases hconclude

theorem not_issues_of_metrics {s : Session} {around : Surroundings} {o : Operation}
    (h : (s.step around o).2.world.metrics = s.world.metrics) (token : Token) :
    ¬ s.Issues around o token := by
  intro hissues
  have hbegun := hissues.begun
  rw [h] at hbegun
  exact absurd hbegun (Nat.ne_of_lt (Nat.lt_succ_self _))

theorem Prepares.issues_or_keeps {s : Session} {c : Client} {w : World} (hp : s.Prepares c w)
    {around : Surroundings} {o : Operation}
    (hclient : (s.step around o).2.client = (c.authenticate w).2.1)
    (hworld : (s.step around o).2.world = (c.authenticate w).2.2) :
    (∃ token, s.Issues around o token ∧ (s.step around o).2.client.cache =
      some ⟨token, s.client.authenticator.credentials.protocol⟩) ∨
    ((∀ token, ¬ s.Issues around o token) ∧ (s.step around o).2.client.cache = c.cache) := by
  rw [hclient]
  refine hp.cache_authenticate.imp ?_ ?_
  · rintro ⟨token, hoffer, hcache⟩
    exact ⟨token, ⟨by rw [hworld]; exact hp.attempts_authenticate, hoffer⟩, hcache⟩
  · rintro ⟨hnone, hcache⟩
    exact ⟨fun token h => hnone token h.offered, hcache⟩

/-- What a step does to the cache: it is filled by a token that is issued, emptied by a drop, and else
as it was. -/
theorem step_cache (s : Session) (around : Surroundings) (o : Operation) :
    (∃ token, s.Issues around o token ∧ (s.step around o).2.client.cache =
      some ⟨token, s.client.authenticator.credentials.protocol⟩) ∨
    ((∀ token, ¬ s.Issues around o token) ∧ s.Drops around o ∧
      (s.step around o).2.client.cache = none) ∨
    ((∀ token, ¬ s.Issues around o token) ∧ ¬ s.Drops around o ∧
      (s.step around o).2.client.cache = s.client.cache) := by
  have hasIs : s.Prepares s.client s.world := .inl ⟨rfl, rfl⟩
  have hrenewing : s.Prepares s.client.invalidate s.world.renewing := .inr ⟨rfl, rfl⟩
  cases o with
  | authenticate =>
    have hstep := s.step_authenticate around
    refine (hasIs.issues_or_keeps (by rw [hstep]) (by rw [hstep])).imp_right ?_
    exact fun ⟨hnone, hcache⟩ => .inr ⟨hnone, id, hcache⟩
  | addAuthentication headers =>
    have hstep := congrArg Prod.snd (s.step_addAuthentication around headers)
    rcases s.addAuthentication_course around.now headers with
      ⟨hc, h⟩ | ⟨-, hdue, h⟩ | ⟨hdue, h⟩ <;> rw [h] at hstep
    · refine (hasIs.issues_or_keeps (by rw [hstep]) (by rw [hstep])).imp_right ?_
      rintro ⟨hnone, hcache⟩
      refine .inr ⟨hnone, fun hdrops => ?_, hcache⟩
      exact TokenCache.not_isOverdue_none (hc ▸ hdrops.2)
    · exact .inr (.inr ⟨not_issues_of_metrics (by rw [hstep]), hdue, by rw [hstep]⟩)
    · -- the drop precedes the exchange, so it shows only where no token is issued
      refine (hrenewing.issues_or_keeps (by rw [hstep]) (by rw [hstep])).imp_right ?_
      exact fun ⟨hnone, hcache⟩ => .inl ⟨hnone, hdue, hcache⟩
  | addEncryption tls =>
    have hsame : (s.step around (.addEncryption tls)).2.world.metrics = s.world.metrics ∧
        (s.step around (.addEncryption tls)).2.client.cache = s.client.cache := by
      have heffect := s.step_effect around (.addEncryption tls)
      generalize (s.step around (.addEncryption tls)).2 = after at heffect
      cases heffect with
      | quiet | configured => exact ⟨rfl, rfl⟩
      | exchanged h => cases h
    exact .inr (.inr ⟨not_issues_of_metrics hsame.1, id, hsame.2⟩)
  | invalidate => exact .inr (.inl ⟨not_issues_of_metrics rfl, trivial, rfl⟩)
  | needsRenewal | display | metrics => exact .inr (.inr ⟨not_issues_of_metrics rfl, id, rfl⟩)

theorem run_of_untouched {s : Session} {steps : List (Surroundings × Operation)}
    (h : Untouched s steps) : (s.run steps).2.client.cache = s.client.cache := by
  induction steps generalizing s with
  | nil => rfl
  | cons step rest ih =>
    obtain ⟨around, o⟩ := step
    obtain ⟨hissues, hdrops, hrest⟩ := h
    rw [run_cons, ih hrest]
    rcases s.step_cache around o with ⟨token, h, -⟩ | ⟨-, h, -⟩ | ⟨-, -, hcache⟩
    · exact absurd h (hissues token)
    · exact absurd h hdrops
    · exact hcache

theorem Issues.step_cache {s : Session} {around : Surroundings} {o : Operation} {token : Token}
    (h : s.Issues around o token) : (s.step around o).2.client.cache =
      some ⟨token, s.client.authenticator.credentials.protocol⟩ := by
  rcases s.step_cache around o with ⟨token', h', hcache⟩ | ⟨hnone, -, -⟩ | ⟨hnone, -, -⟩
  · -- the response grants one token only
    have hsame := (offers_iff.1 h.offered).symm.trans (offers_iff.1 h'.offered)
    rw [Except.ok.inj hsame, hcache]
  · exact absurd h (hnone token)
  · exact absurd h (hnone token)

theorem LastIssued.cons {s : Session} {around : Surroundings} {o : Operation}
    {rest : List (Surroundings × Operation)} {token : Token}
    (h : LastIssued (s.step around o).2 rest token) : LastIssued s ((around, o) :: rest) token := by
  obtain ⟨before, around', o', after, rfl, h⟩ := h
  exact ⟨(around, o) :: before, around', o', after, rfl, h⟩

/-- What is kept after a run was kept before and left alone, or is what the run issued last. -/
theorem run_cache {s : Session} {steps : List (Surroundings × Operation)} {kept : CachedToken}
    (h : (s.run steps).2.client.cache = some kept) :
    (Untouched s steps ∧ s.client.cache = some kept) ∨
      (LastIssued s steps kept.token ∧
        kept.protocol = s.client.authenticator.credentials.protocol) := by
  induction steps generalizing s with
  | nil => exact .inl ⟨trivial, h⟩
  | cons step rest ih =>
    obtain ⟨around, o⟩ := step
    rw [run_cons] at h
    rcases ih h with ⟨huntouched, hcache⟩ | ⟨hlast, hprotocol⟩
    · rcases s.step_cache around o with ⟨token, hissues, hstep⟩ | ⟨-, -, hstep⟩ | ⟨hnone, hdrops, hstep⟩
      · cases hstep.symm.trans hcache
        exact .inr ⟨⟨[], around, o, rest, rfl, hissues, huntouched⟩, rfl⟩
      · cases hstep.symm.trans hcache
      · exact .inl ⟨⟨hnone, hdrops, huntouched⟩, hstep.symm.trans hcache⟩
    · exact .inr ⟨hlast.cons, by rw [hprotocol, step_credentials]⟩

theorem LastIssued.run_cache {first : Session} {steps : List (Surroundings × Operation)}
    {token : Token} (h : LastIssued first steps token) : (first.run steps).2.client.cache =
      some ⟨token, first.client.authenticator.credentials.protocol⟩ := by
  obtain ⟨before, around, o, after, rfl, hissues, huntouched⟩ := h
  rw [run_append, run_cons, run_of_untouched huntouched, hissues.step_cache, run_credentials]

end Session

end TokenKeeper
