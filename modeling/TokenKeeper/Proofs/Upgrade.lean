import TokenKeeper.Proofs.Runs
import TokenKeeper.Proofs.Scheme
import TokenKeeper.Proofs.Validity

/-!
# Exchanges under a TLS section

With a TLS section the identity service is meant to be reached over TLS alone. The check of a
configuration takes the blanks off the url before it looks at the scheme, and the step to TLS does
not: it changes the text only where the scheme comes first. A url of plain http behind a blank
(`isDisguised`) therefore passes the check and is not upgraded, and as the reader of urls takes most
blanks off again, the credentials go out in the clear. These are the only such urls: what a text
spells (`Spelled`) is settled when the client is made, and no step of a run changes it.
-/

namespace TokenKeeper

/-- The url is one of plain http, behind at least one blank. -/
def isDisguised (url : String) : Bool :=
  (Text.trimBlank url).startsWith "http://" && !url.startsWith "http"

theorem Text.trimBlank_prefix (s : String) :
    (trimBlank s).toList <+: s.toList.dropWhile isBlank := by
  have h : (trimBlank s).toList = (s.toList.dropWhile isBlank).rdropWhile isBlank := by
    unfold trimBlank; rw [String.toList_ofList]; rfl
  rw [h]
  exact List.rdropWhile_prefix ..

/-- What a text begins with apart from blanks is the scheme that it spells. -/
theorem Spelled.of_trimBlank {url : String} {scheme : List Char} (hs : Url.isServiceScheme scheme)
    (h : scheme ++ "://".toList <+: (Text.trimBlank url).toList) :
    Spelled url (url.toList.takeWhile Text.isBlank) scheme := by
  obtain ⟨rest, hrest⟩ := h.trans (Text.trimBlank_prefix url)
  refine ⟨fun c hc => List.mem_takeWhile_imp hc, hs, '/' :: '/' :: rest, ?_⟩
  calc url.toList
      = url.toList.takeWhile Text.isBlank ++ url.toList.dropWhile Text.isBlank :=
        List.takeWhile_append_dropWhile.symm
    _ = url.toList.takeWhile Text.isBlank ++ scheme ++ ':' :: '/' :: '/' :: rest := by
        rw [← hrest]; simp

/-- A scheme of the web begins with `http`, and a text begins with the scheme that it spells exactly
if no blank comes before it. -/
theorem Spelled.startsWith_http {url : String} {blanks scheme : List Char}
    (h : Spelled url blanks scheme) : url.startsWith "http" = true ↔ blanks = [] := by
  obtain ⟨rest, htext⟩ := h.text
  rw [String.startsWith_string_iff, htext]
  cases blanks with
  | nil => rcases h.isService with rfl | rfl <;> simp
  | cons b blanks =>
    simp [h.ne_of_cons.symm]

/-- An accepted url spells a scheme of the web behind blanks, and it is disguised exactly if the
scheme is http and there is such a blank. -/
theorem Credentials.spelled_of_urlIssues {c : Credentials} (h : c.urlIssues = []) :
    ∃ blanks scheme, Spelled c.authUrl blanks scheme ∧
      (isDisguised c.authUrl = true ↔ scheme = "http".toList ∧ blanks ≠ []) := by
  have hstarts : (Text.trimBlank c.authUrl).startsWith "http://" = true ∨
      (Text.trimBlank c.authUrl).startsWith "https://" = true := by
    unfold urlIssues Issue.unless at h
    dsimp only at h
    split at h
    · cases h
    split at h
    · next hs => exact Bool.or_eq_true_iff.1 hs
    · cases h
  rcases hstarts with hhttp | hhttps
  · have hspelled := Spelled.of_trimBlank (.inl rfl) (String.startsWith_string_iff.1 hhttp)
    refine ⟨_, _, hspelled, ?_⟩
    rw [isDisguised, hhttp, ne_eq, ← hspelled.startsWith_http]
    simp
  · have hpre := String.startsWith_string_iff.1 hhttps
    have hnot : (Text.trimBlank c.authUrl).startsWith "http://" = false := by
      rw [String.startsWith_string_eq_false_iff]
      intro h
      exact absurd (List.prefix_of_prefix_length_le h hpre (by decide)) (by decide)
    refine ⟨_, _, Spelled.of_trimBlank (.inr rfl) hpre, ?_⟩
    rw [isDisguised, hnot]
    simp

namespace Session

/-- The address spells a scheme, and that of TLS if there is no blank in front of it. -/
structure Reaches (blanks scheme : List Char) (s : Session) : Prop where
  spelled : Spelled s.client.transport.authUrl blanks scheme
  secure : blanks = [] → scheme = "https".toList

variable {blanks scheme : List Char}

theorem Reaches.step {s : Session} (h : Reaches blanks scheme s) (around : Surroundings)
    (o : Operation) : Reaches blanks scheme (s.step around o).2 := by
  refine ⟨?_, h.secure⟩
  have heffect := s.step_effect around o
  generalize (s.step around o).2 = after at heffect
  cases heffect with
  | quiet | dropped => exact h.spelled
  | @configured tls t ht records =>
    have hsame : (if blanks = [] then "https".toList else scheme) = scheme := by
      split
      · next hb => exact (h.secure hb).symm
      · rfl
    have := h.spelled.secureScheme
    rwa [hsame, ← Transport.configure_authUrl ht] at this
  | exchanged _ hp =>
    dsimp only
    rw [hp.transport_authenticate, Authenticator.prepared_authUrl]
    exact h.spelled

/-- Wherever an exchange sends its request, it is a url of the scheme that is spelled. -/
theorem Reaches.parse_address {s : Session} (h : Reaches blanks scheme s) {u : Url}
    (hu : Url.parse s.client.authenticator.address = .ok u) : u.scheme = scheme :=
  (h.spelled.joinUrl _).parse_scheme hu

theorem Reaches.head {s : Session} (h : Reaches blanks scheme s) (around : Surroundings)
    (o : Operation) {r : Http.Request}
    (hr : (s.observe around o).1.received.head? = some r) : r.url.scheme = scheme := by
  rcases s.observe_row around o with hnone | ⟨url, rs, haddress, hrow, -, -⟩
  · rw [hnone] at hr; cases hr
  · rw [hrow] at hr
    cases hr
    obtain ⟨v, hv, -, rfl⟩ := Http.readAddress_ok_iff.1 haddress
    exact show v.scheme = scheme from h.parse_address hv

/-- In every run of a client whose configuration has a TLS section, exchanges go over TLS exactly if
the configured url is not disguised: so is every url that an exchange is sent to, and so is the first
request that reaches the peer at any step. -/
theorem exchange_secure_iff_not_disguised {text : String} {config : ServiceConfig}
    {tls : TlsSection} {files : Files} {c : Client} (hconfig : ServiceConfig.parse text = .ok config)
    (htls : config.tls = some tls) (hc : Client.ofConfig files config = .ok c) (kind : ClientKind)
    (w : World) (steps : List (Surroundings × Operation)) :
    let s := ((Session.mk kind c w).run steps).2
    (∀ u, Url.parse s.client.authenticator.address = .ok u →
      u.isWeb = true ∧ (u.isSecure = true ↔ isDisguised config.identity.authUrl = false)) ∧
    ∀ around o r, (s.observe around o).1.received.head? = some r →
      (r.url.isSecure = true ↔ isDisguised config.identity.authUrl = false) := by
  obtain ⟨blanks, scheme, hspelled, hdisguised⟩ :=
    Credentials.spelled_of_urlIssues (ServiceConfig.urlIssues_of_parse hconfig)
  have hstart : Reaches blanks (if blanks = [] then "https".toList else scheme)
      (Session.mk kind c w) := by
    refine ⟨?_, fun hb => if_pos hb⟩
    obtain ⟨t, ht, rfl⟩ := (Client.ofConfig_ok_iff htls).1 hc
    change Spelled t.authUrl _ _
    rw [Transport.configure_authUrl ht]
    exact hspelled.secureScheme
  have hrun := run_keeps (fun s around o (h : Reaches _ _ s) => h.step around o) hstart steps
  have hsecure : ∀ u : Url, u.scheme = (if blanks = [] then "https".toList else scheme) →
      (u.isSecure = true ↔ isDisguised config.identity.authUrl = false) := by
    intro u hu
    rw [Url.isSecure, hu, ← Bool.not_eq_true, hdisguised]
    by_cases hb : blanks = []
    · simp [hb]
    · rcases hspelled.isService with rfl | rfl <;> simp [hb]
  refine ⟨fun u hu => ?_, fun around o r hr => hsecure r.url (hrun.head around o hr)⟩
  have hscheme := hrun.parse_address hu
  refine ⟨?_, hsecure u hscheme⟩
  rw [Url.isWeb, hscheme]
  rcases hrun.spelled.isService with h | h <;> rw [h] <;> rfl

/-- A configuration with a disguised url. -/
def disguisedText : String :=
  "keystone: \x7bauth_url: ' http://keystone:5000/v2.0', username: admin, password: secret\x7d\n" ++
    "tls: \x7binsecure: true\x7d\n"

def disguisedConfig : ServiceConfig where
  settings := ⟨some .default, none, true⟩
  identity := ⟨" http://keystone:5000/v2.0", .v2, "", "", "admin", "secret", none, "", ""⟩
  tls := some ⟨.unverified, true⟩

def disguisedClient : Client where
  authenticator := ⟨disguisedConfig.identity,
    ⟨.plain false none, disguisedConfig.identity.authUrl, .insecure, none⟩, true⟩
  cache := none

/-- A disguised url is accepted, and the credentials of its configuration are sent over plain http. -/
theorem exchange_in_clear_of_disguised :
    ServiceConfig.parse disguisedText = .ok disguisedConfig ∧
      Client.ofConfig [] disguisedConfig = .ok disguisedClient ∧
      ∃ r, (((Session.mk .keepalive disguisedClient (.start ⟨true, [], [], []⟩)).run []).2.observe
          ⟨[], ⟨0, 0⟩⟩ .authenticate).1.received.head? = some r ∧
        r.body.isSome = true ∧ r.url.isSecure = false := by
  have hconfig : ServiceConfig.parse disguisedText = .ok disguisedConfig :=
    ok_of_toOption (by decide +kernel)
  have hc : Client.ofConfig [] disguisedConfig = .ok disguisedClient :=
    ok_of_toOption (by decide +kernel)
  have hreceived : ((((Session.mk .keepalive disguisedClient (.start ⟨true, [], [], []⟩)).run
      []).2.observe ⟨[], ⟨0, 0⟩⟩ .authenticate).1.received.head?.any (·.body.isSome)) = true := by
    decide +kernel
  obtain ⟨r, hr, hbody⟩ := (Option.any_eq_true _ _).1 hreceived
  refine ⟨hconfig, hc, r, hr, hbody, ?_⟩
  have hsecure := (exchange_secure_iff_not_disguised hconfig rfl hc .keepalive
    (.start ⟨true, [], [], []⟩) []).2 ⟨[], ⟨0, 0⟩⟩ .authenticate r hr
  rw [← Bool.not_eq_true, hsecure]
  decide +kernel

end Session

end TokenKeeper
