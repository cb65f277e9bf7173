import TokenKeeper.Http.Peer

/-!
# Which requests reach the peer

Sending a request can end in a row of requests that reach the peer: the first is the one that was
sent, and each further one is where the answer to the one before leads (`Trail`). Whether a request
of the row still carries the body of the first depends on the answers before it alone: each of them
has to be a redirect that keeps the body.
-/

namespace TokenKeeper.Http

/-- Each request after the first is the one that the reply to the request before it leads to. -/
inductive Trail : List Request → List Reply → Prop
  | single (r : Request) (script : List Reply) : Trail [r] script
  | hop {r next : Request} {answer : Response} {rs : List Request} {script : List Reply}
      (h : r.next? answer = some next) (rest : Trail (next :: rs) script) :
      Trail (r :: next :: rs) (.response answer :: script)

/-- The first `n` replies are redirects that keep the body. -/
def KeepBody (script : List Reply) (n : Nat) : Prop :=
  ∀ i < n, ∃ answer, script[i]? = some (.response answer) ∧ answer.keepsBody = true

theorem keepBody_zero (script : List Reply) : KeepBody script 0 :=
  fun _ h => absurd h (Nat.not_lt_zero _)

theorem keepBody_succ_cons (answer : Response) (script : List Reply) (n : Nat) :
    KeepBody (.response answer :: script) (n + 1) ↔ answer.keepsBody = true ∧ KeepBody script n := by
  constructor
  · intro h
    refine ⟨?_, fun i hi => h (i + 1) (Nat.succ_lt_succ hi)⟩
    obtain ⟨a, ha, hk⟩ := h 0 (Nat.succ_pos n)
    cases ha
    exact hk
  · rintro ⟨hk, h⟩ i hi
    cases i with
    | zero => exact ⟨answer, rfl, hk⟩
    | succ i => exact h i (Nat.lt_of_succ_lt_succ hi)

theorem KeepBody.mono {script : List Reply} {m n : Nat} (h : KeepBody script n) (hm : m ≤ n) :
    KeepBody script m :=
  fun i hi => h i (Nat.lt_of_lt_of_le hi hm)

theorem Request.next?_of_keepsBody {r next : Request} {answer : Response}
    (h : r.next? answer = some next) (hk : answer.keepsBody = true) :
    next.method = r.method ∧ next.headers = r.headers ∧ next.body = r.body := by
  unfold Request.next? at h
  split at h
  · cases h
  · simp only [Option.bind_eq_some_iff, Option.map_eq_some_iff] at h
    obtain ⟨_, _, _, _, rfl⟩ := h
    exact ⟨rfl, rfl, rfl⟩

theorem Request.next?_body_of_not_keepsBody {r next : Request} {answer : Response}
    (h : r.next? answer = some next) (hk : answer.keepsBody = false) : next.body = none := by
  unfold Request.next? at h
  split at h
  · cases h
  · simp only [Option.bind_eq_some_iff, Option.map_eq_some_iff] at h
    obtain ⟨_, _, _, _, rfl⟩ := h
    simp [hk]

namespace Trail
variable {rs : List Request} {script : List Reply}

theorem body_none {r : Request} (h : Trail (r :: rs) script) (hr : r.body = none) :
    ∀ q ∈ r :: rs, q.body = none := by
  induction rs generalizing r script with
  | nil => intro q hq; rw [List.mem_singleton.1 hq]; exact hr
  | cons next rs ih =>
    cases h with
    | @hop _ _ answer _ script h rest =>
      have hnext : next.body = none := by
        cases hk : answer.keepsBody with
        | true => rw [(Request.next?_of_keepsBody h hk).2.2]; exact hr
        | false => exact Request.next?_body_of_not_keepsBody h hk
      intro q hq
      rcases List.mem_cons.1 hq with rfl | hq
      · exact hr
      · exact ih rest hnext q hq

/-- The request at place `i` carries a body exactly if all answers before it keep it, and then it
is handed over as the first request did. -/
theorem body_iff {r q : Request} {i : Nat} (h : Trail (r :: rs) script) (hr : r.body.isSome)
    (hq : (r :: rs)[i]? = some q) :
    (q.body.isSome ↔ KeepBody script i) ∧
      (q.body.isSome → q.method = r.method ∧ q.headers = r.headers ∧ q.body = r.body) := by
  induction i generalizing r rs script with
  | zero =>
    cases hq
    exact ⟨⟨fun _ => keepBody_zero script, fun _ => hr⟩, fun _ => ⟨rfl, rfl, rfl⟩⟩
  | succ i ih =>
    cases h with
    | single => cases hq
    | @hop _ next answer rs script h rest =>
      rw [keepBody_succ_cons]
      cases hk : answer.keepsBody with
      | true =>
        obtain ⟨hm, hh, hb⟩ := Request.next?_of_keepsBody h hk
        have := ih rest (by rw [hb]; exact hr) hq
        rw [hm, hh, hb] at this
        exact ⟨by simpa using this.1, this.2⟩
      | false =>
        have hnone := rest.body_none (Request.next?_body_of_not_keepsBody h hk) q
          (List.mem_of_getElem? hq)
        simp [hnone]

theorem next {i : Nat} {r q : Request} (h : Trail rs script) (hr : rs[i]? = some r)
    (hq : rs[i + 1]? = some q) :
    ∃ answer, script[i]? = some (.response answer) ∧ r.next? answer = some q := by
  induction i generalizing rs script with
  | zero =>
    cases h with
    | single => cases hq
    | hop h _ => cases hr; cases hq; exact ⟨_, rfl, h⟩
  | succ i ih =>
    cases h with
    | single => cases hq
    | hop _ rest => exact ih rest hr hq

end Trail

theorem deliver_received (client : HttpClient) (r : Request) (p : Peer) :
    (deliver client r p).received = if p.accepts client r.url then [r] else [] := by
  unfold deliver
  cases p.accepts client r.url with
  | false => rfl
  | true => simp only [Bool.not_true, Bool.false_eq_true, ↓reduceIte]; split <;> rfl

/-- A request that is sent once reaches the peer as a row of its own, if at all. -/
theorem deliver_row (client : HttpClient) (r : Request) (p : Peer) (n : Nat) :
    (deliver client r p).received = [] ∨
      ∃ rs, (deliver client r p).received = r :: rs ∧ rs.length ≤ n ∧ Trail (r :: rs) p.script := by
  rw [deliver_received]
  cases p.accepts client r.url with
  | false => exact .inl rfl
  | true => exact .inr ⟨[], rfl, Nat.zero_le n, .single r _⟩

theorem deliver_ok {client : HttpClient} {r : Request} {p : Peer} {answer : Response}
    (h : (deliver client r p).outcome = .ok answer) :
    (deliver client r p).received = [r] ∧
      p.script = .response answer :: (deliver client r p).peer.script := by
  unfold deliver at h ⊢
  split at h
  · cases h
  next haccepts =>
    dsimp only at h ⊢
    rw [if_neg haccepts]
    split at h
    next answer' rest hscript =>
      cases h
      rw [hscript]
      exact ⟨rfl, rfl⟩
    · cases h

/-- What reaches the peer is nothing, or a row that the sent request begins. -/
theorem follow_received (client : HttpClient) (n : Nat) (r : Request) (p : Peer) :
    (follow client n r p).received = [] ∨
      ∃ rs, (follow client n r p).received = r :: rs ∧ rs.length ≤ n ∧ Trail (r :: rs) p.script := by
  fun_induction follow client n r p with
  | case1 | case2 | case3 | case4 => exact deliver_row client _ _ _
  | case5 r p first answer hok next hnext n hweb rest ih =>
    -- one answer is used up; the rest of the row is that of the next request
    obtain ⟨hreceived, hscript⟩ := deliver_ok hok
    show first.received ++ rest.received = [] ∨ _
    rw [hreceived, hscript]
    right
    rcases ih with h | ⟨rs, h, hlen, htrail⟩
    · exact ⟨[], congrArg (r :: ·) h, Nat.zero_le _, .single r _⟩
    · exact ⟨next :: rs, congrArg (r :: ·) h, Nat.succ_le_succ hlen, .hop hnext htrail⟩

/-- The response is the reply to the last request that reached the peer, and leads nowhere else. -/
def Exchanged.EndsIn (e : Exchanged) (script : List Reply) (answer : Response) : Prop :=
  ∃ rs last, e.received = rs ++ [last] ∧ script[rs.length]? = some (.response answer) ∧
    last.next? answer = none

theorem endsIn_of_deliver {client : HttpClient} {r : Request} {p : Peer} {answer : Response}
    (h : (deliver client r p).outcome = .ok answer) (hlast : r.next? answer = none) :
    (deliver client r p).EndsIn p.script answer := by
  obtain ⟨hreceived, hscript⟩ := deliver_ok h
  exact ⟨[], r, hreceived, by rw [hscript]; rfl, hlast⟩

/-- The response that sending a request results in is the one at the end of all redirects. -/
theorem follow_ok {client : HttpClient} {n : Nat} {r : Request} {p : Peer} {answer : Response}
    (h : (follow client n r p).outcome = .ok answer) :
    (follow client n r p).EndsIn p.script answer := by
  fun_induction follow client n r p with
  | case1 n r p first f hf => cases hf.symm.trans h
  | case2 n r p first answer' hok hlast =>
    cases hok.symm.trans h
    exact endsIn_of_deliver hok hlast
  | case3 | case4 => cases h
  | case5 r p first answer' hok next hnext n hweb rest ih =>
    -- the answer to this request is used up, and the rest ends as that of the next one
    obtain ⟨hreceived, hscript⟩ := deliver_ok hok
    obtain ⟨rs, last, hrs, hanswer, hlast⟩ := ih h
    refine ⟨r :: rs, last, ?_, by rw [hscript]; exact hanswer, hlast⟩
    show first.received ++ rest.received = _
    rw [hreceived, hrs]
    rfl

end TokenKeeper.Http
