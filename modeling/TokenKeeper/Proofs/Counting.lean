import TokenKeeper.Client.Fleet
import TokenKeeper.Proofs.Keeping

/-!
# The metrics tell what happened

Every step of a client leaves the world alone but for records, or is one exchange, before which a
token past half its life may have been dropped (`Session.Course`). Which of them it is can be told
from the client and the clock before the step, so the exchanges of a run can be listed without a look
at the metrics (`Fleet.attempts`). The metrics are their books (`Metrics.Books`), and stay so in every
turn of every client that shares them.
-/

namespace TokenKeeper

/-- The counts are those of the things in the list. -/
structure Counts.Tallies {κ : Type} [DecidableEq κ] (c : Counts κ) (ks : List κ) : Prop where
  get : ∀ k, c.get k = ks.countP fun l => l = k
  total : ∀ p, c.total p = ks.countP p
  mem : ∀ k n, (k, n) ∈ c → k ∈ ks

namespace Counts.Tallies
variable {κ : Type} [DecidableEq κ] {c : Counts κ} {ks : List κ}

theorem nil : Tallies (κ := κ) [] [] :=
  ⟨fun _ => rfl, fun _ => rfl, fun _ _ h => nomatch h⟩

theorem bump (h : c.Tallies ks) (k : κ) : (c.bump k).Tallies (ks ++ [k]) where
  get l := by
    rw [get_bump, h.get, List.countP_append, List.countP_singleton]
    by_cases hl : l = k
    · simp [hl]
    · simp [hl, Ne.symm hl]
  total p := by rw [total_bump, h.total, List.countP_append, List.countP_singleton]
  mem l n hl := by
    rw [List.mem_append, List.mem_singleton]
    rcases mem_bump hl with rfl | ⟨n', hl'⟩
    · exact .inr rfl
    · exact .inl (h.mem l n' hl')

end Counts.Tallies

/-- An exchange that was attempted: the way it took and what it came to. -/
structure Attempt where
  strategy : Strategy
  outcome : Except AuthError Token

namespace Attempt

def protocol (a : Attempt) : Protocol := a.strategy.protocol

def reason? (a : Attempt) : Option String :=
  match a.outcome with
  | .ok _ => none
  | .error e => some e.kind

/-- The second in which the token that was obtained expires, if its time is a timestamp. -/
def expiry? (a : Attempt) : Option Int :=
  match a.outcome with
  | .ok t => (Time.Rfc3339.parse t.expiresAt).toOption.map Time.Instant.second
  | .error _ => none

end Attempt

/-- The numbers are those of the attempts, in their order, and of that many renewals. -/
structure Metrics.Books (m : Metrics) (attempts : List Attempt) (renewals : Nat) : Prop where
  requests : m.requests.Tallies (attempts.map fun a => (a.protocol, a.strategy.method))
  durations : m.durations.Tallies (attempts.map Attempt.protocol)
  failures : m.failures.Tallies (attempts.filterMap fun a => a.reason?.map (a.protocol, ·))
  reasons : ∀ a ∈ attempts, ∀ reason, a.reason? = some reason →
    reason ∈ ["network", "protocol", "invalid_response"]
  refreshes : m.refreshes = renewals
  expiry : m.expiry = (attempts.filterMap Attempt.expiry?).getLast?.getD 0

theorem Authenticator.counted_eq (a : Authenticator) (outcome : Except AuthError Token)
    (m : Metrics) : a.counted outcome m =
      { m with
        requests := m.requests.bump (a.strategy.protocol, a.strategy.method)
        durations := m.durations.bump a.strategy.protocol
        failures := (Attempt.mk a.strategy outcome).reason?.elim m.failures fun reason =>
          m.failures.bump (a.strategy.protocol, reason)
        expiry := (Attempt.mk a.strategy outcome).expiry?.getD m.expiry } := by
  unfold counted countOutcome Attempt.expiry? readTime
  cases outcome with
  | error _ => rfl
  | ok t => dsimp only; cases Time.Rfc3339.parse t.expiresAt <;> rfl

namespace Metrics.Books
variable {m : Metrics} {attempts : List Attempt} {renewals : Nat}

theorem zero : Metrics.zero.Books [] 0 :=
  ⟨.nil, .nil, .nil, fun _ h => (nomatch h), rfl, rfl⟩

theorem renewed (h : m.Books attempts renewals) : m.countRefresh.Books attempts (renewals + 1) :=
  { h with refreshes := congrArg (· + 1) h.refreshes }

theorem exchanged (h : m.Books attempts renewals) (a : Authenticator)
    {outcome : Except AuthError Token}
    (hreason : ∀ e, outcome = .error e → e.kind ∈ ["network", "protocol", "invalid_response"]) :
    (a.counted outcome m).Books (attempts ++ [⟨a.strategy, outcome⟩]) renewals := by
  rw [a.counted_eq]
  refine ⟨?_, ?_, ?_, ?_, h.refreshes, ?_⟩
  · rw [List.map_append]
    exact h.requests.bump _
  · rw [List.map_append]
    exact h.durations.bump _
  · rw [List.filterMap_append]
    cases outcome with
    | ok t => simpa [Attempt.reason?] using h.failures
    | error e => exact h.failures.bump _
  · intro b hb reason hb'
    rcases List.mem_append.1 hb with hb | hb
    · exact h.reasons b hb reason hb'
    · cases List.mem_singleton.1 hb
      cases outcome with
      | ok t => cases hb'
      | error e =>
        cases hb'
        exact hreason e rfl
  · rw [h.expiry, List.filterMap_append]
    cases he : (Attempt.mk a.strategy outcome).expiry? with
    | none => simp [he]
    | some second => simp [he]

section
variable (h : m.Books attempts renewals) (p : Protocol)
include h

theorem requests_get (method : String) : m.requests.get (p, method) =
    attempts.countP fun a => a.protocol = p ∧ a.strategy.method = method := by
  rw [h.requests.get, List.countP_map]
  refine List.countP_congr fun a _ => ?_
  simp

theorem requests_total :
    (m.requests.total fun k => k.1 = p) = attempts.countP fun a => a.protocol = p := by
  rw [h.requests.total, List.countP_map]
  rfl

theorem durations_get : m.durations.get p = attempts.countP fun a => a.protocol = p := by
  rw [h.durations.get, List.countP_map]
  rfl

theorem failures_get (reason : String) : m.failures.get (p, reason) =
    attempts.countP fun a => a.protocol = p ∧ a.reason? = some reason := by
  rw [h.failures.get, List.countP_filterMap]
  refine List.countP_congr fun a _ => ?_
  cases a.reason? <;> simp

theorem failures_total : (m.failures.total fun k => k.1 = p) =
    attempts.countP fun a => a.protocol = p ∧ a.reason?.isSome := by
  rw [h.failures.total, List.countP_filterMap]
  refine List.countP_congr fun a _ => ?_
  cases a.reason? <;> simp

/-- Attempts that succeeded and attempts that failed are all there are. -/
theorem balance : (attempts.countP fun a => a.protocol = p ∧ a.reason? = none) +
    (m.failures.total fun k => k.1 = p) = m.requests.total fun k => k.1 = p := by
  rw [h.failures_total, h.requests_total]
  clear h
  induction attempts with
  | nil => rfl
  | cons a rest ih =>
    have hone : ((if a.protocol = p ∧ a.reason? = none then 1 else 0) +
        if a.protocol = p ∧ a.reason?.isSome then 1 else 0) =
        if a.protocol = p then 1 else 0 := by
      cases a.reason? <;> simp
    simp only [List.countP_cons, decide_eq_true_eq]
    omega

end

theorem reason_of_mem (h : m.Books attempts renewals) {k : Protocol × String} {n : Nat}
    (hk : (k, n) ∈ m.failures) : k.2 ∈ ["network", "protocol", "invalid_response"] := by
  obtain ⟨a, ha, hreason⟩ := List.mem_filterMap.1 (h.failures.mem k n hk)
  obtain ⟨reason, hfailed, rfl⟩ := Option.map_eq_some_iff.1 hreason
  exact h.reasons a ha reason hfailed

end Metrics.Books

theorem Authenticator.books_authenticate (a : Authenticator) {w : World} {attempts : List Attempt}
    {renewals : Nat} (h : w.metrics.Books attempts renewals) :
    (a.authenticate w).2.2.metrics.Books (attempts ++ [⟨a.strategy, (a.authenticate w).1⟩])
      renewals := by
  rw [authenticate_eq]
  dsimp only
  exact h.exchanged a fun _ he => Strategy.kind_of_conclude he

theorem TokenCache.isOverdue_iff {cache : TokenCache} {now : Time.Instant} :
    cache.IsOverdue now ↔ cache.isSome = true ∧ (cache.needsRenewal now).toOption = some true := by
  constructor
  · intro h
    rw [needsRenewal_of_isOverdue h]
    obtain ⟨kept, rfl, -⟩ := h
    exact ⟨rfl, rfl⟩
  · rintro ⟨hsome, hdue⟩
    obtain ⟨kept, rfl⟩ := Option.isSome_iff_exists.1 hsome
    refine ⟨kept, rfl, ?_⟩
    rw [needsRenewal_some] at hdue
    obtain ⟨deadline, hd, hafter⟩ := map_eq_ok_iff.1 (ok_of_toOption hdue)
    rcases kept.token.deadline_cases with ⟨_, _, -, hd'⟩ | ⟨issued, expires, hi, he, hd'⟩
    · rw [hd'] at hd
      cases hd
    · rw [hd'] at hd
      cases hd
      exact ⟨issued, expires, hi, he, hafter.symm⟩

instance (cache : TokenCache) (now : Time.Instant) : Decidable (cache.IsOverdue now) :=
  decidable_of_iff _ TokenCache.isOverdue_iff.symm

namespace Session

/-- A keepalive client whose token is past half its life. -/
def Renews (s : Session) (now : Time.Instant) : Prop :=
  s.kind = .keepalive ∧ s.client.cache.IsOverdue now

instance (s : Session) (now : Time.Instant) : Decidable (s.Renews now) :=
  inferInstanceAs (Decidable (_ ∧ _))

/-- What an exchange of the client comes to as things are. -/
def attempt (s : Session) : Attempt :=
  ⟨s.client.authenticator.strategy, (s.client.authenticator.authenticate s.world).1⟩

/-- The exchange that a step runs: always if it is asked for, and for a request's headers if there is
no token to put on them, or none that will be kept. -/
def exchange? (s : Session) (around : Surroundings) : Operation → Option Attempt
  | .authenticate => some s.attempt
  | .addAuthentication _ =>
    if s.client.cache = none ∨ s.Renews around.now then some s.attempt else none
  | _ => none

/-- How many tokens a step drops because half of their life is over. -/
def renewals (s : Session) (around : Surroundings) : Operation → Nat
  | .addAuthentication _ => if s.Renews around.now then 1 else 0
  | _ => 0

/-- What becomes of a client and its world, with the exchange that was run meanwhile and the number of
tokens that were dropped at half their life. -/
inductive Course (s : Session) : Session → Option Attempt → Nat → Prop
  | silent (c : Client) (records : List LogRecord) :
      Course s { s with client := c, world := s.world.log records } none 0
  | exchanged :
      Course s
        { s with
          client := (s.client.authenticate s.world).2.1
          world := (s.client.authenticate s.world).2.2 }
        (some s.attempt) 0
  | renewed :
      Course s
        { s with
          client := (s.client.invalidate.authenticate s.world.renewing).2.1
          world := (s.client.invalidate.authenticate s.world.renewing).2.2 }
        (some s.attempt) 1

theorem Course.unchanged (s : Session) : s.Course s none 0 := by
  have := Course.silent (s := s) s.client []
  rwa [World.log_nil] at this

theorem step_course (s : Session) (around : Surroundings) (o : Operation) :
    s.Course (s.step around o).2 (s.exchange? around o) (s.renewals around o) := by
  cases o with
  | authenticate =>
    rw [step_authenticate]
    exact .exchanged
  | addAuthentication headers =>
    rw [step_addAuthentication]
    unfold exchange? renewals
    dsimp only
    rcases s.addAuthentication_course around.now headers with
      ⟨hnone, h⟩ | ⟨hkept, hdue, h⟩ | ⟨hdue, h⟩ <;> rw [h]
    · have hdue : ¬ s.Renews around.now :=
        fun hdue => TokenCache.not_isOverdue_none (hnone ▸ hdue.2)
      rw [if_pos (.inl hnone), if_neg hdue]
      exact .exchanged
    · have hdue : ¬ s.Renews around.now := hdue
      rw [if_neg fun h => h.elim hkept hdue, if_neg hdue]
      exact .unchanged s
    · have hdue : s.Renews around.now := hdue
      rw [if_pos (.inr hdue), if_pos hdue]
      exact .renewed
  | needsRenewal | display | metrics => exact .unchanged s
  | invalidate => exact .silent s.client.invalidate [Client.invalidateRecord]
  | addEncryption tls =>
    cases h : s.client.transport.configure around.files tls with
    | ok t =>
      rw [step_addEncryption_ok h]
      exact .silent (s.client.withTransport t) _
    | error e =>
      rw [step_addEncryption_error h]
      exact .silent s.client _

variable {attempts : List Attempt} {renewals : Nat}

theorem Course.books {s after : Session} {exchange : Option Attempt} {n : Nat}
    (h : s.Course after exchange n) (hbooks : s.world.metrics.Books attempts renewals) :
    after.world.metrics.Books (attempts ++ exchange.toList) (renewals + n) := by
  cases h with
  | silent c records =>
    rw [Option.toList_none, List.append_nil]
    exact hbooks
  | exchanged =>
    dsimp only
    rw [s.client.authenticate_world]
    exact s.client.authenticator.books_authenticate hbooks
  | renewed =>
    have hrenewing : s.world.renewing.metrics.Books attempts (renewals + 1) := hbooks.renewed
    -- an exchange does not look at the metrics, so it comes to the same after the token is dropped
    have hpeer : s.world.renewing.peer = s.world.peer := rfl
    have hclient : s.client.invalidate.authenticator = s.client.authenticator := rfl
    have hsame : s.attempt = ⟨s.client.authenticator.strategy,
        (s.client.authenticator.authenticate s.world.renewing).1⟩ := by
      rw [attempt, Authenticator.authenticate_outcome, Authenticator.authenticate_outcome, hpeer]
    dsimp only
    rw [s.client.invalidate.authenticate_world, hclient, hsame]
    exact s.client.authenticator.books_authenticate hrenewing

end Session

namespace Fleet

/-- The exchange that a turn runs. -/
def exchange? (f : Fleet) (t : Turn) : Option Attempt :=
  (f.session? t).bind fun s => s.exchange? t.around t.operation

/-- How many tokens a turn drops because half of their life is over. -/
def renewalsIn (f : Fleet) (t : Turn) : Nat :=
  (f.session? t).elim 0 fun s => s.renewals t.around t.operation

/-- The exchanges of a run, of all clients, in their order. -/
def attempts : Fleet → List Turn → List Attempt
  | _, [] => []
  | f, t :: rest => (f.exchange? t).toList ++ (f.step t).attempts rest

/-- How many tokens are dropped in a run because half of their life is over. -/
def renewals : Fleet → List Turn → Nat
  | _, [] => 0
  | f, t :: rest => f.renewalsIn t + (f.step t).renewals rest

theorem books_step {f : Fleet} {done : List Attempt} {n : Nat}
    (h : f.world.metrics.Books done n) (t : Turn) :
    (f.step t).world.metrics.Books (done ++ (f.exchange? t).toList) (n + f.renewalsIn t) := by
  unfold step exchange? renewalsIn
  cases hs : f.session? t with
  | none => simpa using h
  | some s =>
    have hbooks : s.world.metrics.Books done n := by
      obtain ⟨m, -, rfl⟩ := Option.map_eq_some_iff.1 hs
      exact h
    exact (s.step_course t.around t.operation).books hbooks

theorem books_run {f : Fleet} {done : List Attempt} {n : Nat}
    (h : f.world.metrics.Books done n) (turns : List Turn) :
    (f.run turns).world.metrics.Books (done ++ f.attempts turns) (n + f.renewals turns) := by
  induction turns generalizing f done n with
  | nil =>
    rw [attempts, renewals, List.append_nil]
    exact h
  | cons t rest ih =>
    -- what is done by now carries the induction: a turn adds to its end
    have := ih (books_step h t)
    rwa [List.append_assoc, Nat.add_assoc] at this

/-- From metrics that are zero on, whatever clients there are, whoever takes the next turn and whatever
the peers answer, the metrics tell what was attempted: how many exchanges of each protocol, by each
method, and how many of them failed for each reason, of which there are three; how many tokens were
dropped at half their life; and when the token expires that was obtained last, of those that say so.
What a step runs and drops is what `Session.exchange?` and `Session.renewals` say, and a step that does
not ask for a token leaves the metrics alone. -/
theorem metrics_books (members : List (ClientKind × Client)) (w : World) (turns : List Turn) :
    let first : Fleet := ⟨members, { w with metrics := .zero }⟩
    let attempts := first.attempts turns
    let m := (first.run turns).world.metrics
    (∀ p, (m.requests.total fun k => k.1 = p) = attempts.countP (fun a => a.protocol = p) ∧
      m.durations.get p = attempts.countP fun a => a.protocol = p) ∧
    (∀ p method, m.requests.get (p, method) =
      attempts.countP fun a => a.protocol = p ∧ a.strategy.method = method) ∧
    (∀ p reason, m.failures.get (p, reason) =
      attempts.countP fun a => a.protocol = p ∧ a.reason? = some reason) ∧
    (∀ p, (attempts.countP fun a => a.protocol = p ∧ a.reason? = none) +
      (m.failures.total fun k => k.1 = p) = m.requests.total fun k => k.1 = p) ∧
    (∀ k n, (k, n) ∈ m.failures → k.2 ∈ ["network", "protocol", "invalid_response"]) ∧
    m.refreshes = first.renewals turns ∧
    m.expiry = (attempts.filterMap Attempt.expiry?).getLast?.getD 0 ∧
    (∀ (s : Session) around o,
      s.Course (s.step around o).2 (s.exchange? around o) (s.renewals around o)) ∧
    (∀ (s : Session) around o, Session.asksForToken o = false →
      (s.step around o).2.world.metrics = s.world.metrics) := by
  intro first attempts m
  have hbooks : m.Books attempts (first.renewals turns) := by
    have := books_run (f := first) Metrics.Books.zero turns
    rwa [List.nil_append, Nat.zero_add] at this
  refine ⟨fun p => ⟨hbooks.requests_total p, hbooks.durations_get p⟩, hbooks.requests_get,
    hbooks.failures_get, hbooks.balance, fun k n => hbooks.reason_of_mem, hbooks.refreshes,
    hbooks.expiry, Session.step_course, fun s around o ho => ?_⟩
  have hcourse := s.step_course around o
  generalize (s.step around o).2 = after at hcourse
  cases o with
  | authenticate | addAuthentication => cases ho
  | needsRenewal | addEncryption | invalidate | display | metrics =>
    unfold Session.exchange? Session.renewals at hcourse
    cases hcourse
    rfl

end Fleet

end TokenKeeper
