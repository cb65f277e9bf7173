import TokenKeeper.Proofs.Runs

/-!
# Where the credentials go

An exchange sends one request, but a peer may answer it with a redirect, and a redirect that keeps
the body hands the credentials on to wherever it leads: to another host, or from TLS to plain http.
So it is up to the peer whether the credentials stay with the identity service, and
`Session.credentials_stay_iff` says exactly when they do. The row of requests that one exchange can
end in is described by `Http.Carries`, whatever the answers.
-/

namespace TokenKeeper

namespace Http

/-- A row of requests that `first` begins and that answers lead on: a request carries the body of the
first exactly if every answer before it keeps the body. -/
structure Carries (first : Request) (script : List Reply) (rs : List Request) : Prop where
  head : rs.head? = some first
  length : rs.length ≤ maxRedirects + 1
  body : ∀ i r, rs[i]? = some r → (r.body.isSome ↔ KeepBody script i) ∧
    (r.body.isSome → r.method = first.method ∧ r.headers = first.headers ∧ r.body = first.body)
  next : ∀ i r q, rs[i]? = some r → rs[i + 1]? = some q →
    ∃ answer, script[i]? = some (.response answer) ∧ r.next? answer = some q

namespace Carries
variable {first : Request} {script : List Reply} {rs : List Request}

theorem of_trail (hfirst : first.body.isSome) (hlen : rs.length ≤ maxRedirects)
    (h : Trail (first :: rs) script) : Carries first script (first :: rs) where
  head := rfl
  length := Nat.succ_le_succ hlen
  body _ _ hr := h.body_iff hfirst hr
  next _ _ _ hr hq := h.next hr hq

theorem body_before (h : Carries first script rs) {i : Nat} {r q : Request}
    (hr : rs[i]? = some r) (hq : rs[i + 1]? = some q) (hbody : q.body.isSome) : r.body.isSome :=
  (h.body i r hr).1.2 (((h.body (i + 1) q hq).1.1 hbody).mono (Nat.le_succ i))

/-- The body stays where it was first sent exactly if each redirect that keeps it does. -/
theorem stays_iff {α : Type} (place : Request → α) (h : Carries first script rs) :
    (∀ r ∈ rs, r.body.isSome → place r = place first) ↔
      ∀ i r q, KeepBody script (i + 1) → rs[i]? = some r → rs[i + 1]? = some q →
        place q = place r := by
  constructor
  · intro hall i r q hkeep hr hq
    have hbody := (h.body (i + 1) q hq).1.2 hkeep
    rw [hall q (List.mem_of_getElem? hq) hbody,
      hall r (List.mem_of_getElem? hr) (h.body_before hr hq hbody)]
  · intro hhop r hr
    obtain ⟨i, hi⟩ := List.getElem?_of_mem hr
    clear hr
    -- along the row, from the first request to the one in question
    induction i generalizing r with
    | zero =>
      rw [← List.head?_eq_getElem?, h.head] at hi
      cases hi
      exact fun _ => rfl
    | succ i ih =>
      intro hbody
      have hlt : i < rs.length := Nat.lt_of_succ_lt (List.getElem?_eq_some_iff.1 hi).1
      have hprev := List.getElem?_eq_getElem hlt
      rw [hhop i rs[i] r ((h.body (i + 1) r hi).1.1 hbody) hprev hi]
      exact ih _ hprev (h.body_before hprev hi hbody)

end Carries

end Http

namespace Session

/-- Whatever a client has done before, the requests of a step that reach the peer, if any, begin with
the exchange's request at the address of the identity service, and the credentials stay at its scheme,
host and port exactly if no redirect that keeps the body leads away. -/
theorem credentials_stay_iff (s₀ : Session) (steps : List (Surroundings × Operation))
    (around : Surroundings) (o : Operation) :
    let s := (s₀.run steps).2
    let a := s.client.authenticator
    let script := s.world.peer.script
    let rs := (s.observe around o).1.received
    rs = [] ∨ ∃ url, Http.readAddress a.address = .ok url ∧
      Http.Carries (.postJson url (a.strategy.body a.credentials)) script rs ∧
      ((∀ r ∈ rs, r.body.isSome → r.url.origin = url.origin) ↔
        ∀ i r q, Http.KeepBody script (i + 1) → rs[i]? = some r → rs[i + 1]? = some q →
          q.url.origin = r.url.origin) := by
  generalize (s₀.run steps).2 = s
  rcases s.observe_row around o with hnone | ⟨url, rs, haddress, hrow, hlen, htrail⟩
  · exact .inl hnone
  · have hcarries := Http.Carries.of_trail rfl hlen htrail
    rw [← hrow] at hcarries
    exact .inr ⟨url, haddress, hcarries, hcarries.stays_iff fun r => r.url.origin⟩

/-- A client of a service over TLS, whose peer answers with a redirect to plain http elsewhere. -/
def misled : Session where
  kind := .keepalive
  client :=
    .new ⟨"https://keystone:5000", .v3, "", "demo", "admin", "secret", none, "Default", "PD"⟩ true
  world := .start ⟨true, [], [],
    [.of 307 [.of Http.location (Text.Utf8.encode "http://other/v3/auth/tokens")] [] true]⟩

/-- The credentials of that client are sent over plain http to the other host. -/
theorem credentials_leave_misled :
    ∃ url, Http.readAddress misled.client.authenticator.address = .ok url ∧ url.isSecure = true ∧
      ∃ r ∈ ((misled.run []).2.observe ⟨[], ⟨0, 0⟩⟩ .authenticate).1.received,
        r.url.isSecure = false ∧ r.body = some
          (misled.client.authenticator.strategy.body misled.client.authenticator.credentials) := by
  have hleaves : ((misled.run []).2.observe ⟨[], ⟨0, 0⟩⟩ .authenticate).1.received[1]?.any
      (fun r => r.body.isSome && !r.url.isSecure) = true := by decide +kernel
  obtain ⟨r, hr, hbody⟩ := (Option.any_eq_true _ _).1 hleaves
  rw [Bool.and_eq_true, Bool.not_eq_true'] at hbody
  rcases credentials_stay_iff misled [] ⟨[], ⟨0, 0⟩⟩ .authenticate with
    hnone | ⟨url, haddress, hcarries, -⟩
  · rw [hnone] at hr; cases hr
  have hsecure : (Http.readAddress misled.client.authenticator.address).toOption.any
      Url.isSecure = true := by decide +kernel
  refine ⟨url, haddress, ?_, r, List.mem_of_getElem? hr, hbody.2, ?_⟩
  · change Http.readAddress misled.client.authenticator.address = _ at haddress
    rw [haddress] at hsecure; exact hsecure
  · exact ((hcarries.body 1 r hr).2 hbody.1).2.2

end Session

end TokenKeeper
