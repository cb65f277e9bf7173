import TokenKeeper.Proofs.Exchange
import TokenKeeper.Proofs.HeaderText
import TokenKeeper.Proofs.Written

/-!
# What is concluded from a response

An exchange ends in a token exactly if the final response grants one (`Strategy.Grants`): it arrived
completely, its status means success, its body has the form of a response, and every text of the token
is given and not empty. A response that grants none is an error, and which one is decided in this order:
whether the response arrived, its status, and then all the rest as one. Nothing but the final response
counts, neither those that led to it nor what the client was before
(`Authenticator.authenticate_result`).
-/

namespace TokenKeeper

/-- Fails in one way only: the response describes no complete token. -/
def OnlyRejects {α : Type} (outcome : Except AuthError α) : Prop :=
  ∀ e, outcome = .error e → ∃ reason, e = .invalidResponse reason

namespace OnlyRejects
variable {α β : Type}

theorem ok (a : α) : OnlyRejects (.ok a) := fun _ h => nomatch h

theorem error (reason : String) : OnlyRejects (α := α) (.error (.invalidResponse reason)) :=
  fun _ h => ⟨reason, (Except.error.inj h).symm⟩

theorem bind {part : Except AuthError α} {next : α → Except AuthError β} (h : OnlyRejects part)
    (hnext : ∀ a, OnlyRejects (next a)) : OnlyRejects (part.bind next) :=
  FailsOnly.bind h hnext

theorem map {part : Except AuthError α} (h : OnlyRejects part) (f : α → β) :
    OnlyRejects (part.map f) := FailsOnly.map h f

end OnlyRejects

theorem required_eq_ok_iff {value : Option String} {field s : String} :
    required value field = .ok s ↔ value = some s ∧ s ≠ "" := by
  have hfilter : (value.filter fun v => !v.isEmpty) = some s ↔ value = some s ∧ s ≠ "" := by
    rw [Option.filter_eq_some_iff]
    simp
  rw [← hfilter]
  unfold required
  cases value.filter fun v => !v.isEmpty <;> simp

theorem required_onlyRejects (value : Option String) (field : String) :
    OnlyRejects (required value field) := by
  unfold required
  split
  · exact .ok _
  · exact .error _

theorem readBody_onlyRejects (schema : Json.Schema) (body : String) :
    OnlyRejects (readBody schema body) := by
  unfold readBody
  cases schema.read body with
  | error m => exact .error _
  | ok fields => exact .ok fields

/-- None of the token's texts is empty. -/
structure Token.IsFull (t : Token) : Prop where
  id : t.id ≠ ""
  issuedAt : t.issuedAt ≠ ""
  expiresAt : t.expiresAt ≠ ""

open Json in
/-- A v2 response that grants the token: its body has the form of a response, and the members of the
token's record give all of it. -/
structure V2Response.Grants (r : Http.Response) (t : Token) : Prop where
  status : r.status = 200
  body : ∃ d access token, Holds r.text d ∧ IsRecord form d ∧ Reaches d access token ∧
    Gives token ["id", "Id"] (.string (.ok t.id)) ∧
    Gives token ["issued_at", "Issued_At"] (.string (.ok t.issuedAt)) ∧
    Gives token ["expires", "Expires"] (.string (.ok t.expiresAt))
  full : t.IsFull

open Json in
/-- A v3 response that grants the token: its id is the first header of that name, byte for byte, and
its times are given by the members of the token's record. -/
structure V3Response.Grants (r : Http.Response) (t : Token) : Prop where
  status : r.status = 200 ∨ r.status = 201
  header : ∃ before sensitive after,
    r.headers = before ++ ⟨"x-subject-token", Text.Utf8.encode t.id, sensitive⟩ :: after ∧
      ∀ h ∈ before, h.name ≠ "x-subject-token"
  visible : ∀ b ∈ Text.Utf8.encode t.id, b = 9 ∨ (32 ≤ b ∧ b < 127)
  body : ∃ d token, Holds r.text d ∧ IsRecord form d ∧ Reaches d token ∧
    Gives token ["issued_at"] (.string (.ok t.issuedAt)) ∧
    Gives token ["expires_at"] (.string (.ok t.expiresAt))
  full : t.IsFull

namespace V2Response

theorem decode_onlyRejects (body : String) : OnlyRejects (decode body) :=
  (readBody_onlyRejects schema body).map ofFields

theorem token_onlyRejects (v : V2Response) : OnlyRejects v.token :=
  (required_onlyRejects _ _).bind fun _ => (required_onlyRejects _ _).bind fun _ =>
    (required_onlyRejects _ _).bind fun _ => .ok _

theorem token_eq_ok_iff {v : V2Response} {t : Token} :
    v.token = .ok t ↔
      (v.id = some t.id ∧ v.issuedAt = some t.issuedAt ∧ v.expires = some t.expiresAt) ∧ t.IsFull := by
  have htoken : v.token =
      (required v.id "access.token.id").bind fun id =>
        (required v.issuedAt "access.token.issued_at").bind fun issuedAt =>
          (required v.expires "access.token.expires").bind fun expiresAt =>
            .ok ⟨id, issuedAt, expiresAt⟩ := rfl
  simp only [htoken, bind_eq_ok_iff, required_eq_ok_iff]
  constructor
  · rintro ⟨_, ⟨hi, hi'⟩, _, ⟨ha, ha'⟩, _, ⟨he, he'⟩, ht⟩
    cases ht
    exact ⟨⟨hi, ha, he⟩, hi', ha', he'⟩
  · rintro ⟨⟨hi, ha, he⟩, hfull⟩
    exact ⟨_, ⟨hi, hfull.id⟩, _, ⟨ha, hfull.issuedAt⟩, _, ⟨he, hfull.expiresAt⟩, rfl⟩

end V2Response

theorem subjectTokenOf_eq_ok_some_iff {headers : Http.Headers} {id : String} :
    subjectTokenOf headers = .ok (some id) ↔
      headers.first? "x-subject-token" = some (Text.Utf8.encode id) ∧
        ∀ b ∈ Text.Utf8.encode id, b = 9 ∨ (32 ≤ b ∧ b < 127) := by
  have hname : (Http.Header.of subjectToken []).name = "x-subject-token" := by decide
  unfold subjectTokenOf
  rw [hname]
  cases headers.first? "x-subject-token" with
  | none => simp
  | some value =>
    have hvalue : Http.visibleText? value = some id ↔ some value = some (Text.Utf8.encode id) ∧
        ∀ b ∈ Text.Utf8.encode id, b = 9 ∨ (32 ≤ b ∧ b < 127) := by
      rw [Http.visibleText?_eq_some_iff, Option.some.injEq]
      exact and_congr_right fun h => by rw [h]
    rw [← hvalue]
    dsimp only
    cases Http.visibleText? value <;> simp

theorem subjectTokenOf_onlyRejects (headers : Http.Headers) :
    OnlyRejects (subjectTokenOf headers) := by
  unfold subjectTokenOf
  split
  · exact .ok _
  · split
    · exact .ok _
    · exact .error _

namespace V3Response

theorem decode_onlyRejects (body : String) : OnlyRejects (decode body) :=
  (readBody_onlyRejects schema body).map ofFields

theorem token_eq (v : V3Response) (headers : Http.Headers) :
    v.token headers =
      (subjectTokenOf headers).bind fun found =>
        (required found subjectToken).bind fun id =>
          (required v.issuedAt "token.issued_at").bind fun issuedAt =>
            (required v.expiresAt "token.expires_at").bind fun expiresAt =>
              .ok ⟨id, issuedAt, expiresAt⟩ := rfl

theorem token_onlyRejects (v : V3Response) (headers : Http.Headers) :
    OnlyRejects (v.token headers) := by
  rw [token_eq]
  exact (subjectTokenOf_onlyRejects headers).bind fun _ => (required_onlyRejects _ _).bind fun _ =>
    (required_onlyRejects _ _).bind fun _ => (required_onlyRejects _ _).bind fun _ => .ok _

theorem token_eq_ok_iff {v : V3Response} {headers : Http.Headers} {t : Token} :
    v.token headers = .ok t ↔
      (headers.first? "x-subject-token" = some (Text.Utf8.encode t.id) ∧
        ∀ b ∈ Text.Utf8.encode t.id, b = 9 ∨ (32 ≤ b ∧ b < 127)) ∧
      (v.issuedAt = some t.issuedAt ∧ v.expiresAt = some t.expiresAt) ∧ t.IsFull := by
  rw [← subjectTokenOf_eq_ok_some_iff, token_eq]
  simp only [bind_eq_ok_iff, required_eq_ok_iff]
  constructor
  · rintro ⟨_, hh, _, ⟨rfl, hi⟩, _, ⟨ha, ha'⟩, _, ⟨he, he'⟩, ht⟩
    cases ht
    exact ⟨hh, ⟨ha, he⟩, hi, ha', he'⟩
  · rintro ⟨hh, ⟨ha, he⟩, hfull⟩
    exact ⟨_, hh, _, ⟨rfl, hfull.id⟩, _, ⟨ha, hfull.issuedAt⟩, _, ⟨he, hfull.expiresAt⟩, rfl⟩

theorem Grants.first?_eq {r : Http.Response} {t : Token} (h : Grants r t) :
    r.headers.first? "x-subject-token" = some (Text.Utf8.encode t.id) :=
  Http.Headers.first?_eq_some_iff.2 h.header

theorem Grants.id_eq {r r' : Http.Response} {t t' : Token} (h : Grants r t) (h' : Grants r' t')
    (hheaders : r.headers = r'.headers) : t.id = t'.id := by
  have hvalue := subjectTokenOf_eq_ok_some_iff.2 ⟨h.first?_eq, h.visible⟩
  rw [hheaders, subjectTokenOf_eq_ok_some_iff.2 ⟨h'.first?_eq, h'.visible⟩] at hvalue
  exact (Option.some.inj (Except.ok.inj hvalue)).symm

end V3Response

namespace Strategy

/-- A response that grants the token to who asked for it that way. -/
def Grants : Strategy → Http.Response → Token → Prop
  | v2Token | v2Password => V2Response.Grants
  | v3Password => V3Response.Grants

variable {s : Strategy} {r : Http.Response} {t : Token}

theorem Grants.accepted (h : s.Grants r t) : r.status ∈ s.accepted := by
  cases s with
  | v2Token | v2Password => exact List.mem_singleton.2 (V2Response.Grants.status h)
  | v3Password =>
    rcases V3Response.Grants.status h with h | h <;> rw [h]
    · exact List.mem_cons_self
    · exact List.mem_cons_of_mem _ (List.mem_singleton.2 rfl)

/-- The response in which a service writes a token out; in v2 it says whose the token is and where. -/
def written (s : Strategy) (t : Token) (tenant : Option Tenant) (user : Option User) :
    Http.Response :=
  match s with
  | v2Token | v2Password => ⟨200, [], Text.Utf8.encode
      (V2Response.mk (some t.id) (some t.issuedAt) (some t.expiresAt) tenant user).toJson.render, true⟩
  | v3Password => ⟨201, [⟨"x-subject-token", Text.Utf8.encode t.id, false⟩], Text.Utf8.encode
      (V3Response.mk (some t.issuedAt) (some t.expiresAt)).toJson.render, true⟩

/-- A full token that is written out is granted, if its id can be read from the header that holds it. -/
theorem grants_written (s : Strategy) (tenant : Option Tenant) (user : Option User)
    (hfull : t.IsFull)
    (hvisible : s = .v3Password → ∀ b ∈ Text.Utf8.encode t.id, b = 9 ∨ (32 ≤ b ∧ b < 127)) :
    s.Grants (s.written t tenant user) t := by
  cases s with
  | v2Token | v2Password =>
    refine ⟨rfl, V2Response.exists_decode_iff.1 ⟨⟨some t.id, some t.issuedAt, some t.expiresAt,
      tenant, user⟩, ?_, rfl, rfl, rfl⟩, hfull⟩
    rw [Http.Response.text, written, Text.Utf8.decodeLossy_encode]
    exact V2Response.decode_render _
  | v3Password =>
    refine ⟨.inr rfl, ⟨[], false, [], rfl, by simp⟩, hvisible rfl, V3Response.exists_decode_iff.1
      ⟨⟨some t.issuedAt, some t.expiresAt⟩, ?_, rfl, rfl⟩, hfull⟩
    rw [Http.Response.text, written, Text.Utf8.decodeLossy_encode]
    exact V3Response.decode_render _

theorem tokenIn_v2_eq_ok_iff (h : r.status = 200) :
    (V2Response.decode r.text).bind V2Response.token = .ok t ↔ V2Response.Grants r t := by
  simp only [bind_eq_ok_iff, V2Response.token_eq_ok_iff]
  constructor
  · rintro ⟨v, hv, hbody, hfull⟩
    exact ⟨h, V2Response.exists_decode_iff.1 ⟨v, hv, hbody⟩, hfull⟩
  · rintro ⟨-, hbody, hfull⟩
    obtain ⟨v, hv, hbody⟩ := V2Response.exists_decode_iff.2 hbody
    exact ⟨v, hv, hbody, hfull⟩

theorem tokenIn_v3_eq_ok_iff (h : r.status = 200 ∨ r.status = 201) :
    ((V3Response.decode r.text).bind fun v => v.token r.headers) = .ok t ↔
      V3Response.Grants r t := by
  simp only [bind_eq_ok_iff, V3Response.token_eq_ok_iff, Http.Headers.first?_eq_some_iff]
  constructor
  · rintro ⟨v, hv, ⟨hheader, hvisible⟩, hbody, hfull⟩
    exact ⟨h, hheader, hvisible, V3Response.exists_decode_iff.1 ⟨v, hv, hbody⟩, hfull⟩
  · rintro ⟨-, hheader, hvisible, hbody, hfull⟩
    obtain ⟨v, hv, hbody⟩ := V3Response.exists_decode_iff.2 hbody
    exact ⟨v, hv, ⟨hheader, hvisible⟩, hbody, hfull⟩

theorem tokenIn_eq_ok_iff (h : r.status ∈ s.accepted) : s.tokenIn r = .ok t ↔ s.Grants r t := by
  cases s with
  | v2Token | v2Password => exact tokenIn_v2_eq_ok_iff (List.mem_singleton.1 h)
  | v3Password =>
    refine tokenIn_v3_eq_ok_iff ?_
    rcases List.mem_cons.1 h with h | h
    · exact .inl h
    · exact .inr (List.mem_singleton.1 h)

theorem tokenIn_onlyRejects (s : Strategy) (r : Http.Response) : OnlyRejects (s.tokenIn r) := by
  cases s with
  | v2Token | v2Password =>
    exact (V2Response.decode_onlyRejects _).bind fun v => v.token_onlyRejects
  | v3Password =>
    exact (V3Response.decode_onlyRejects _).bind fun v => v.token_onlyRejects r.headers

/-- What the judgement of a response says: it did not arrive, its status is a refusal, it grants a
token, or it should but does not. -/
inductive Judged (s : Strategy) (r : Http.Response) : Except AuthError Token → Prop
  | cutShort (h : r.isComplete = false) : Judged s r (.error (.network .cutShort))
  | refused (h : r.isComplete = true) (hstatus : r.status ∉ s.accepted) :
      Judged s r (.error (.protocol (Http.statusLine r.status) r.text))
  | granted {t : Token} (h : r.isComplete = true) (ht : s.Grants r t) : Judged s r (.ok t)
  | rejected (h : r.isComplete = true) (hstatus : r.status ∈ s.accepted)
      (ht : ∀ t, ¬ s.Grants r t) (reason : String) : Judged s r (.error (.invalidResponse reason))

theorem judge_judged (s : Strategy) (r : Http.Response) : Judged s r (s.judge r) := by
  unfold judge
  cases hcomplete : r.isComplete with
  | false => exact .cutShort hcomplete
  | true =>
    simp only [Bool.not_true, Bool.false_eq_true, ↓reduceIte, List.contains_iff_mem]
    split
    next hstatus =>
      cases htoken : s.tokenIn r with
      | ok t => exact .granted hcomplete ((tokenIn_eq_ok_iff hstatus).1 htoken)
      | error e =>
        obtain ⟨reason, rfl⟩ := s.tokenIn_onlyRejects r e htoken
        refine .rejected hcomplete hstatus (fun t ht => ?_) reason
        rw [(tokenIn_eq_ok_iff hstatus).2 ht] at htoken
        cases htoken
    next hstatus => exact .refused hcomplete hstatus

variable {outcome : Except Http.Failure Http.Response}

theorem conclude_eq_ok_iff :
    s.conclude outcome = .ok t ↔ ∃ r, outcome = .ok r ∧ r.isComplete = true ∧ s.Grants r t := by
  cases outcome with
  | error f => exact ⟨fun h => (nomatch h), fun ⟨_, h, _⟩ => (nomatch h)⟩
  | ok r =>
    simp only [Except.ok.injEq, exists_eq_left']
    show s.judge r = .ok t ↔ _
    constructor
    · intro h
      have hjudged := s.judge_judged r
      rw [h] at hjudged
      cases hjudged with
      | granted hcomplete ht => exact ⟨hcomplete, ht⟩
    · rintro ⟨hcomplete, ht⟩
      unfold judge
      simp only [hcomplete, Bool.not_true, Bool.false_eq_true, ↓reduceIte, List.contains_iff_mem,
        ht.accepted, (tokenIn_eq_ok_iff ht.accepted).2 ht]

theorem conclude_eq_network_iff {f : Http.Failure} :
    s.conclude outcome = .error (.network f) ↔
      outcome = .error f ∨ f = .cutShort ∧ ∃ r, outcome = .ok r ∧ r.isComplete = false := by
  cases outcome with
  | error g => simp [conclude]
  | ok r =>
    simp only [reduceCtorEq, Except.ok.injEq, exists_eq_left', false_or]
    show s.judge r = .error (.network f) ↔ _
    constructor
    · intro h
      have hjudged := s.judge_judged r
      rw [h] at hjudged
      cases hjudged with
      | cutShort hcomplete => exact ⟨rfl, hcomplete⟩
    · rintro ⟨rfl, hcomplete⟩
      unfold judge
      simp only [hcomplete, Bool.not_false, ↓reduceIte]

theorem conclude_eq_protocol_iff {status body : String} :
    s.conclude outcome = .error (.protocol status body) ↔
      ∃ r, outcome = .ok r ∧ r.isComplete = true ∧ r.status ∉ s.accepted ∧
        status = Http.statusLine r.status ∧ body = Text.Utf8.decodeLossy r.body := by
  cases outcome with
  | error f => exact ⟨fun h => (nomatch h), fun ⟨_, h, _⟩ => (nomatch h)⟩
  | ok r =>
    simp only [Except.ok.injEq, exists_eq_left']
    show s.judge r = .error (.protocol status body) ↔ _
    constructor
    · intro h
      have hjudged := s.judge_judged r
      rw [h] at hjudged
      cases hjudged with
      | refused hcomplete hstatus => exact ⟨hcomplete, hstatus, rfl, rfl⟩
    · rintro ⟨hcomplete, hstatus, rfl, rfl⟩
      unfold judge
      simp only [hcomplete, Bool.not_true, Bool.false_eq_true, ↓reduceIte, List.contains_iff_mem,
        hstatus, Http.Response.text]

theorem conclude_eq_invalid_iff :
    (∃ reason, s.conclude outcome = .error (.invalidResponse reason)) ↔
      ∃ r, outcome = .ok r ∧ r.isComplete = true ∧ r.status ∈ s.accepted ∧
        ∀ t, ¬ s.Grants r t := by
  cases outcome with
  | error f => exact ⟨fun ⟨_, h⟩ => (nomatch h), fun ⟨_, h, _⟩ => (nomatch h)⟩
  | ok r =>
    simp only [Except.ok.injEq, exists_eq_left']
    show (∃ reason, s.judge r = .error (.invalidResponse reason)) ↔ _
    have hjudged := s.judge_judged r
    constructor
    · rintro ⟨reason, h⟩
      rw [h] at hjudged
      cases hjudged with
      | rejected hcomplete hstatus ht => exact ⟨hcomplete, hstatus, ht⟩
    · rintro ⟨hcomplete, hstatus, hnone⟩
      generalize s.judge r = result at hjudged
      cases hjudged with
      | cutShort h => rw [hcomplete] at h; cases h
      | refused _ h => exact absurd hstatus h
      | granted _ ht => exact absurd ht (hnone _)
      | rejected _ _ _ reason => exact ⟨reason, rfl⟩

theorem kind_of_conclude {e : AuthError} (h : s.conclude outcome = .error e) :
    e.kind ∈ ["network", "protocol", "invalid_response"] := by
  cases outcome with
  | error f => cases h; exact List.mem_cons_self
  | ok r =>
    have hjudged := s.judge_judged r
    rw [show s.judge r = .error e from h] at hjudged
    cases hjudged with
    | cutShort | refused | rejected => simp [AuthError.kind]

end Strategy

/-- An exchange ends as its final response says, the one that follows all redirects. It ends in a
token exactly if the response is complete and grants that token. Otherwise it is an error of the
network if there is no complete response, whatever its status; one of the protocol, with the status
and the body as they came, if the status does not mean success, whatever else the response holds; and
else an invalid response. There is no other error, and no id from a v3 body. A response in which a full
token is written out grants that token. -/
theorem Authenticator.authenticate_result (a : Authenticator) (w : World) :
    let final := (a.exchanged w.peer).outcome
    let result := (a.authenticate w).1
    (∀ r, final = .ok r → (a.exchanged w.peer).EndsIn w.peer.script r) ∧
    (∀ t, result = .ok t ↔ ∃ r, final = .ok r ∧ r.isComplete = true ∧ a.strategy.Grants r t) ∧
    (∀ f, result = .error (.network f) ↔
      final = .error f ∨ f = .cutShort ∧ ∃ r, final = .ok r ∧ r.isComplete = false) ∧
    (∀ status body, result = .error (.protocol status body) ↔
      ∃ r, final = .ok r ∧ r.isComplete = true ∧ r.status ∉ a.strategy.accepted ∧
        status = Http.statusLine r.status ∧ body = Text.Utf8.decodeLossy r.body) ∧
    ((∃ reason, result = .error (.invalidResponse reason)) ↔
      ∃ r, final = .ok r ∧ r.isComplete = true ∧ r.status ∈ a.strategy.accepted ∧
        ∀ t, ¬ a.strategy.Grants r t) ∧
    (∀ e, result = .error e → e.kind ∈ ["network", "protocol", "invalid_response"]) ∧
    (∀ r r' t t', a.strategy = .v3Password → a.strategy.Grants r t → a.strategy.Grants r' t' →
      r.headers = r'.headers → t.id = t'.id) ∧
    (∀ t tenant user, t.IsFull → (a.strategy = .v3Password →
      ∀ b ∈ Text.Utf8.encode t.id, b = 9 ∨ (32 ≤ b ∧ b < 127)) →
        a.strategy.Grants (a.strategy.written t tenant user) t) := by
  intro final result
  have hresult : result = a.strategy.conclude final := by
    show (a.authenticate w).1 = _
    rw [authenticate_eq]
  refine ⟨fun r h => a.exchanged_endsIn h, fun t => ?_, fun f => ?_, fun status body => ?_, ?_,
    fun e he => ?_, fun r r' t t' hs ht ht' hheaders => ?_,
    fun t tenant user => a.strategy.grants_written tenant user⟩
  · rw [hresult]; exact Strategy.conclude_eq_ok_iff
  · rw [hresult]; exact Strategy.conclude_eq_network_iff
  · rw [hresult]; exact Strategy.conclude_eq_protocol_iff
  · rw [hresult]; exact Strategy.conclude_eq_invalid_iff
  · rw [hresult] at he
    exact Strategy.kind_of_conclude he
  · rw [hs] at ht ht'
    exact V3Response.Grants.id_eq ht ht' hheaders

end TokenKeeper
