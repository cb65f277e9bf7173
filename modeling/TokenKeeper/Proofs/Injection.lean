import TokenKeeper.Proofs.Keeping

/-!
# The token on a request

A request that is to carry a token leaves with one more header or as it came. The token it is to carry
(`Session.PutsOn`) is the one that is kept, unless it must be replaced first, or else the one that an
exchange is granted; it is kept afterwards in any case. Its id becomes a header's value with the same
bytes if none of them is a control, so only such an id is refused for the header's sake. An id that came
in a header is visible, which is less than what a header may hold; therefore a v3 client's is never
refused, and it leaves with the bytes it came with (`Session.addAuthentication_frames`).
-/

namespace TokenKeeper

namespace Http

/-- The header as a message carries it; its name may be given in letters of either case. -/
def Header.carried (h : Header) : Header := { Header.of h.name h.value with isSensitive := h.isSensitive }

/-- The header is that of the token, in letters of either case. -/
def Header.IsToken (h : Header) : Prop := h.name.toList.map Char.toLower = authToken.toList

instance (h : Header) : Decidable h.IsToken := inferInstanceAs (Decidable (_ = _))

theorem Headers.filter_carried (given : Headers) :
    ((given.map Header.carried).filter fun h => h.name ≠ "x-auth-token") =
      (given.filter fun h => ¬ h.IsToken).map Header.carried := by
  have hname : ∀ h : Header, h.carried.name ≠ "x-auth-token" ↔ ¬ h.IsToken := by
    intro h
    rw [Ne, ← String.toList_inj]
    unfold Header.carried Header.of Header.IsToken
    rw [String.toList_ofList]
    rfl
  -- the test goes over from the carried headers to the given ones
  rw [List.filter_map]
  congr 1
  exact List.filter_congr fun h _ => decide_eq_decide.2 (hname h)

end Http

namespace Session
variable {s : Session} {around : Surroundings} {token : Token}

/-- The token that a request is to carry. -/
inductive PutsOn (s : Session) (now : Time.Instant) : Token → Prop
  /-- The one that is kept, unless a keepalive client refuses it or has to replace it. -/
  | kept {kept : CachedToken} (h : s.client.cache = some kept)
      (hfresh : s.kind = .keepalive → kept.token.IsTimed ∧ ¬ s.client.cache.IsOverdue now) :
      PutsOn s now kept.token
  /-- The one that an exchange is granted, where none is kept or it is to be replaced. -/
  | issued {token : Token}
      (h : s.client.cache = none ∨ (s.kind = .keepalive ∧ s.client.cache.IsOverdue now))
      (hoffers : s.Offers token) : PutsOn s now token

/-- Without a token at hand, the one that an exchange is granted is put on the request. -/
theorem Prepares.outcome_addAuthentication {c : Client} {w : World} (hp : s.Prepares c w)
    (hc : c.cache = none) (headers : Http.Headers) :
    (∀ token, s.Offers token → Injects headers token.id (seen headers (c.addAuthentication headers w).1) ∧
        ∃ kept, (c.addAuthentication headers w).2.1.cache = some kept ∧ kept.token = token) ∧
      ((∀ token, ¬ s.Offers token) → ∃ e, e.kind ≠ "invalid_header" ∧
        seen headers (c.addAuthentication headers w).1 = .authenticated (.error e) headers) := by
  have hresult : (c.authenticator.authenticate w).1 = s.client.authenticator.strategy.conclude
      (s.client.authenticator.exchanged s.world.peer).outcome := by
    rw [Authenticator.authenticate_outcome, hp.authenticator, hp.peer]
  have hobtains : ∀ after : Session, after.client = (c.authenticate w).2.1 →
      after.world = (c.authenticate w).2.2 →
      Obtains c w headers (seen headers (c.addAuthentication headers w).1) after :=
    fun _ => obtains_of_authenticate hc
  specialize hobtains { s with client := (c.authenticate w).2.1, world := (c.authenticate w).2.2 }
    (by dsimp only) (by dsimp only)
  refine ⟨fun token hoffers => ?_, fun hnone => ?_⟩
  · obtain ⟨hcache, houtcome⟩ := hobtains.ok token (hresult.trans (offers_iff.1 hoffers))
    dsimp only at hcache
    rw [c.addAuthentication_of_none_snd w hc]
    exact ⟨houtcome, _, hcache, rfl⟩
  · cases hconclude : s.client.authenticator.strategy.conclude
        (s.client.authenticator.exchanged s.world.peer).outcome with
    | ok token => exact absurd (offers_iff.2 hconclude) (hnone token)
    | error e =>
      refine ⟨e, fun hkind => ?_, (hobtains.error e (hresult.trans hconclude)).2⟩
      have := Strategy.kind_of_conclude hconclude
      rw [hkind] at this
      revert this
      decide

/-- The token that the request is to carry is put on it as far as its id allows, and is kept. -/
theorem PutsOn.step (h : s.PutsOn around.now token) (headers : Http.Headers) :
    Injects headers token.id (s.step around (.addAuthentication headers)).1 ∧
      ∃ kept, (s.step around (.addAuthentication headers)).2.client.cache = some kept ∧
        kept.token = token := by
  rw [step_addAuthentication]
  dsimp only
  rcases s.addAuthentication_cases around.now headers with
    ⟨hc, heq⟩ | ⟨kept, _, _, hc, hk, htimed, -⟩ | ⟨kept, hc, hfresh, heq⟩ | ⟨hdue, heq⟩
  -- one case for each course that a request can take
  · rw [heq]
    cases h with
    | kept h => cases hc.symm.trans h
    | issued _ hoffers =>
      have hasIs : s.Prepares s.client s.world := .inl ⟨rfl, rfl⟩
      exact (hasIs.outcome_addAuthentication hc headers).1 _ hoffers
  · -- a refusal has no token to put on
    exfalso
    cases h with
    | kept h hfresh =>
      cases hc.symm.trans h
      exact htimed (hfresh hk).1
    | issued h _ =>
      rcases h with h | ⟨-, kept', h, hpast⟩
      · cases hc.symm.trans h
      · cases hc.symm.trans h
        exact htimed hpast.isTimed
  · rw [heq]
    cases h with
    | kept h => cases hc.symm.trans h; exact ⟨injects_withToken headers kept.token.id, _, hc, rfl⟩
    | issued h _ =>
      exfalso
      rcases h with h | ⟨hk, hdue⟩
      · cases hc.symm.trans h
      · exact (hfresh hk).2 hdue
  · rw [heq]
    cases h with
    | kept h hfresh => exact absurd hdue.2 (hfresh hdue.1).2
    | issued _ hoffers =>
      have hrenewing : s.Prepares s.client.invalidate s.world.renewing := .inr ⟨rfl, rfl⟩
      exact (hrenewing.outcome_addAuthentication rfl headers).1 _ hoffers

/-- Without a token to carry the request stays as it was, and its headers are not what is wrong. -/
theorem step_of_not_putsOn (h : ∀ token, ¬ s.PutsOn around.now token) (headers : Http.Headers) :
    ∃ e, e.kind ≠ "invalid_header" ∧
      (s.step around (.addAuthentication headers)).1 = .authenticated (.error e) headers := by
  rw [step_addAuthentication]
  dsimp only
  rcases s.addAuthentication_cases around.now headers with
    ⟨hc, heq⟩ | ⟨_, value, fault, -, -, -, heq⟩ | ⟨kept, hc, hfresh, -⟩ | ⟨hdue, heq⟩
  · have hasIs : s.Prepares s.client s.world := .inl ⟨rfl, rfl⟩
    rw [heq]
    exact (hasIs.outcome_addAuthentication hc headers).2 fun token ho => h token (.issued (.inl hc) ho)
  · rw [heq]
    exact ⟨.timeParse value fault, by simp [AuthError.kind], rfl⟩
  · exact absurd (.kept hc hfresh) (h kept.token)
  · have hrenewing : s.Prepares s.client.invalidate s.world.renewing := .inr ⟨rfl, rfl⟩
    rw [heq]
    exact (hrenewing.outcome_addAuthentication rfl headers).2
      fun token ho => h token (.issued (.inr hdue) ho)

/-- A request either is to carry a token, which is put on it and kept, or it stays as it was, and its
headers are not what is wrong. -/
theorem putsOn_or_bare (s : Session) (around : Surroundings) (headers : Http.Headers) :
    let asked := s.step around (.addAuthentication headers)
    (∃ kept, s.PutsOn around.now kept.token ∧ Injects headers kept.token.id asked.1 ∧
      asked.2.client.cache = some kept) ∨
    ((∀ token, ¬ s.PutsOn around.now token) ∧ ∃ e, e.kind ≠ "invalid_header" ∧
      asked.1 = .authenticated (.error e) headers) := by
  intro asked
  by_cases h : ∃ token, s.PutsOn around.now token
  · obtain ⟨token, htoken⟩ := h
    obtain ⟨hinjects, kept, hcache, rfl⟩ := htoken.step headers
    exact .inl ⟨kept, htoken, hinjects, hcache⟩
  · exact .inr ⟨not_exists.1 h, step_of_not_putsOn (not_exists.1 h) headers⟩

theorem exists_authenticated (s : Session) (around : Surroundings) (headers : Http.Headers) :
    ∃ result left, (s.step around (.addAuthentication headers)).1 = .authenticated result left := by
  rcases s.putsOn_or_bare around headers with ⟨_, -, hinjects, -⟩ | ⟨-, e, -, he⟩
  · generalize (s.step around (.addAuthentication headers)).1 = outcome at hinjects
    cases hinjects with
    | put | refused => exact ⟨_, _, rfl⟩
  · exact ⟨_, _, he⟩

variable {headers given left : Http.Headers}

theorem left_of_ok (h : (s.step around (.addAuthentication headers)).1 = .authenticated (.ok ()) left) :
    ∃ kept, (s.step around (.addAuthentication headers)).2.client.cache = some kept ∧
      left = (headers.filter fun h => h.name ≠ "x-auth-token") ++
        [⟨"x-auth-token", Text.Utf8.encode kept.token.id, true⟩] := by
  rcases s.putsOn_or_bare around headers with ⟨kept, -, hinjects, hcache⟩ | ⟨-, e, -, he⟩
  · rw [h] at hinjects
    cases hinjects with
    | put => exact ⟨kept, hcache, rfl⟩
  · cases h.symm.trans he

theorem left_of_error {e : AuthError}
    (h : (s.step around (.addAuthentication headers)).1 = .authenticated (.error e) left) :
    left = headers := by
  rcases s.putsOn_or_bare around headers with ⟨_, -, hinjects, -⟩ | ⟨-, e', -, he⟩
  · rw [h] at hinjects
    cases hinjects with
    | refused => rfl
  · cases h.symm.trans he
    rfl

/-- A request is refused for the header's sake exactly if the id it is to carry has a control. -/
theorem invalidHeader_iff :
    (∃ reason left, (s.step around (.addAuthentication headers)).1 =
      .authenticated (.error (.invalidHeader reason)) left) ↔
    ∃ token, s.PutsOn around.now token ∧ ∃ b ∈ Text.Utf8.encode token.id, Http.IsControl b := by
  constructor
  · rintro ⟨reason, left, h⟩
    rcases s.putsOn_or_bare around headers with ⟨kept, hputs, hinjects, -⟩ | ⟨-, e, hkind, he⟩
    · rw [h] at hinjects
      cases hinjects with
      | refused hid => exact ⟨kept.token, hputs, hid⟩
    · cases h.symm.trans he
      exact absurd rfl hkind
  · rintro ⟨token, hputs, b, hb, hcontrol⟩
    obtain ⟨hinjects, -⟩ := hputs.step headers
    generalize (s.step around (.addAuthentication headers)).1 = outcome at hinjects
    cases hinjects with
    | put hid => exact absurd hcontrol (hid b hb)
    | refused => exact ⟨_, _, rfl⟩

/-- The run issued the token last, out of the response `r`, and dropped none since. -/
def LastGranted (first : Session) (steps : List (Surroundings × Operation)) (token : Token)
    (r : Http.Response) : Prop :=
  ∃ before around o after, steps = before ++ (around, o) :: after ∧
    (first.run before).2.Issues around o token ∧
    Untouched ((first.run before).2.step around o).2 after ∧
    ((first.run before).2.client.authenticator.exchanged (first.run before).2.world.peer).outcome =
      .ok r

/-- The token of a v3 client came in a header of the response that granted it. -/
theorem LastIssued.granted_v3 {first : Session} {steps : List (Surroundings × Operation)}
    (hv3 : first.client.authenticator.credentials.protocol = .v3) (h : LastIssued first steps token) :
    ∃ r, LastGranted first steps token r ∧ V3Response.Grants r token := by
  obtain ⟨before, around, o, after, hsteps, hissues, huntouched⟩ := h
  obtain ⟨r, houtcome, -, hgrants⟩ := id hissues.offered
  refine ⟨r, ⟨before, around, o, after, hsteps, hissues, huntouched, houtcome⟩, ?_⟩
  have hstrategy : (first.run before).2.client.authenticator.strategy = .v3Password := by
    unfold Authenticator.strategy Strategy.ofCredentials
    rw [run_credentials, hv3]
  rw [hstrategy] at hgrants
  exact hgrants

theorem granted_of_kept_v3 {kind : ClientKind} {a : Authenticator} {w : World}
    (hv3 : a.credentials.protocol = .v3) {steps : List (Surroundings × Operation)} {o : Operation}
    {kept : CachedToken} (h : (((Session.mk kind ⟨a, none⟩ w).run steps).2.step around o).2.client.cache =
      some kept) :
    ∃ r, LastGranted (.mk kind ⟨a, none⟩ w) (steps ++ [(around, o)]) kept.token r ∧
      V3Response.Grants r kept.token := by
  have hrun : (((Session.mk kind ⟨a, none⟩ w).run steps).2.step around o).2 =
      ((Session.mk kind ⟨a, none⟩ w).run (steps ++ [(around, o)])).2 := by
    rw [run_append]
    rfl
  rcases run_cache (hrun ▸ h) with ⟨-, hnone⟩ | ⟨hlast, -⟩
  · cases hnone
  · exact hlast.granted_v3 hv3

/-- A client of either kind, after any run, is asked to put its token on a request with any headers,
their names in letters of either case. If that succeeds, the request leaves with its headers apart from
those for a token, unchanged and in their order, and with one sensitive header for the token that is
kept, with the bytes of its id. If it fails, the headers are as they were. It fails for the header's
sake exactly if the token the request is to carry has a control in its id, and that token stays. With
v3 this never happens, and the header has the bytes of the one in which the token came. -/
theorem addAuthentication_frames (kind : ClientKind) (a : Authenticator) (w : World)
    (steps : List (Surroundings × Operation)) (around : Surroundings) (given : Http.Headers) :
    let first := Session.mk kind ⟨a, none⟩ w
    let s := (first.run steps).2
    let headers := given.map Http.Header.carried
    let ask := Operation.addAuthentication headers
    let outcome := (s.step around ask).1
    let after := (s.step around ask).2
    let others := (given.filter fun h => ¬ h.IsToken).map Http.Header.carried
    (∃ result left, outcome = .authenticated result left) ∧
    (∀ left, outcome = .authenticated (.ok ()) left → ∃ kept, after.client.cache = some kept ∧
      left = others ++ [⟨"x-auth-token", Text.Utf8.encode kept.token.id, true⟩]) ∧
    (∀ e left, outcome = .authenticated (.error e) left → left = headers) ∧
    ((∃ reason left, outcome = .authenticated (.error (.invalidHeader reason)) left) ↔
      ∃ token, s.PutsOn around.now token ∧
        ∃ b ∈ Text.Utf8.encode token.id, (b < 32 ∧ b ≠ 9) ∨ b = 127) ∧
    (∀ token, s.PutsOn around.now token →
      ∃ kept, after.client.cache = some kept ∧ kept.token = token) ∧
    (a.credentials.protocol = .v3 →
      (∀ reason left, outcome ≠ .authenticated (.error (.invalidHeader reason)) left) ∧
      ∀ left, outcome = .authenticated (.ok ()) left → ∃ token r value,
        LastGranted first (steps ++ [(around, ask)]) token r ∧
        r.headers.first? "x-subject-token" = some value ∧
        left = others ++ [⟨"x-auth-token", value, true⟩]) := by
  intro first s headers ask outcome after others
  have hothers : (headers.filter fun h => h.name ≠ "x-auth-token") = others :=
    Http.Headers.filter_carried given
  have hok : ∀ left, outcome = .authenticated (.ok ()) left → ∃ kept, after.client.cache = some kept ∧
      left = others ++ [⟨"x-auth-token", Text.Utf8.encode kept.token.id, true⟩] :=
    fun left h => hothers ▸ left_of_ok h
  refine ⟨s.exists_authenticated around headers, hok, fun e left h => left_of_error h,
    invalidHeader_iff, fun token h => (h.step headers).2, fun hv3 => ⟨fun reason left h => ?_,
      fun left h => ?_⟩⟩
  · obtain ⟨token, hputs, b, hb, hcontrol⟩ := invalidHeader_iff.1 ⟨reason, left, h⟩
    obtain ⟨-, kept, hcache, rfl⟩ := hputs.step headers
    obtain ⟨r, -, hr⟩ := granted_of_kept_v3 hv3 hcache
    exact Http.not_isControl_of_visible (hr.visible b hb) hcontrol
  · obtain ⟨kept, hcache, hleft⟩ := hok left h
    obtain ⟨r, hlast, hr⟩ := granted_of_kept_v3 hv3 hcache
    exact ⟨kept.token, r, _, hlast, hr.first?_eq, hleft⟩

end Session

end TokenKeeper
