import TokenKeeper.Command.Run
import TokenKeeper.Proofs.Construction
import TokenKeeper.Proofs.Injection
import TokenKeeper.Proofs.Material
import TokenKeeper.Proofs.Renewal

/-!
# Runs of the command with and without renewal

A run of the command asks its client for a token once, and at first a client of either kind has none.
So the kind is never read (`Command.obtain_eq`), and two runs that differ in nothing else leave the same
report (`Command.run_either_kind`): one exchange, and, if that is granted a token, the request to the
url with its id in the header, all along the redirects.
-/

namespace TokenKeeper

/-! ## Files that are read alike -/

/-- The section names the file. -/
def TlsFiles.Names (t : TlsFiles) (path : String) : Prop :=
  t.caFile = some path ∨ t.certFile = some path ∨ t.keyFile = some path

/-- The files that are named have the same contents, or cannot be read for the same reason. -/
def TlsFiles.ReadAlike (t : TlsFiles) (files files' : Files) : Prop :=
  ∀ path, t.Names path → files'.read path = files.read path

namespace TlsFiles.ReadAlike
variable {files files' : Files} {t : TlsFiles}

theorem resolveRoots_eq (h : t.ReadAlike files files') :
    TlsPolicy.resolveRoots files' t = TlsPolicy.resolveRoots files t :=
  TlsPolicy.resolveRoots_congr fun path hpath => h path (.inl hpath)

theorem loadIdentity_eq (h : t.ReadAlike files files') {cert key : String}
    (hcert : t.certFile = some cert) (hkey : t.keyFile = some key) :
    TlsPolicy.loadIdentity files' cert key = TlsPolicy.loadIdentity files cert key := by
  simp only [TlsPolicy.loadIdentity, TlsPolicy.readFile, h cert (.inr (.inl hcert)),
    h key (.inr (.inr hkey))]

theorem resolve_eq (h : t.ReadAlike files files') :
    TlsPolicy.resolve files' t = TlsPolicy.resolve files t := by
  cases hinsecure : t.insecure with
  | true => simp only [TlsPolicy.resolve, hinsecure, if_true]
  | false =>
    refine TlsPolicy.resolve_eq_of_parts hinsecure hinsecure h.resolveRoots_eq ?_
    unfold TlsPolicy.resolveIdentity
    split
    · next cert key hcert hkey => rw [h.loadIdentity_eq hcert hkey]
    · rfl

theorem resolveRecords_eq (h : t.ReadAlike files files') :
    t.resolveRecords files' = t.resolveRecords files := by
  have hidentity : t.identityRecords files' = t.identityRecords files := by
    unfold identityRecords
    split
    · next cert key hcert hkey => rw [h.loadIdentity_eq hcert hkey]
    · rfl
    · rfl
  unfold resolveRecords
  rw [h.resolveRoots_eq, hidentity]

theorem configure_eq (h : t.ReadAlike files files') (transport : Transport) :
    transport.configure files' t = transport.configure files t := by
  unfold Transport.configure
  rw [h.resolve_eq]

theorem configureRecords_eq (h : t.ReadAlike files files') (transport : Transport) :
    transport.configureRecords files' t = transport.configureRecords files t := by
  unfold Transport.configureRecords
  rw [h.resolveRecords_eq, h.configure_eq]

end TlsFiles.ReadAlike

/-- The configuration with renewal switched on or off. -/
def ServiceConfig.withKeepalive (c : ServiceConfig) (on : Bool) : ServiceConfig :=
  { c with settings := { c.settings with keepalive := on } }

/-- The files that a configuration names for TLS are read alike. -/
def ServiceConfig.ReadAlike (c : ServiceConfig) (files files' : Files) : Prop :=
  ∀ tls, c.tls = some tls → tls.files.ReadAlike files files'

namespace Client
variable {files files' : Files} {config : ServiceConfig}

/-- Making a client does not look at whether its token will be renewed. -/
theorem ofConfig_withKeepalive (h : config.ReadAlike files files') (on : Bool) :
    ofConfig files' (config.withKeepalive on) = ofConfig files config ∧
      ofConfigRecords files' (config.withKeepalive on) = ofConfigRecords files config := by
  have htls : (config.withKeepalive on).tls = config.tls := rfl
  cases hsome : config.tls with
  | none =>
    unfold ofConfig ofConfigRecords
    rw [htls, hsome]
    exact ⟨rfl, rfl⟩
  | some tls =>
    unfold ofConfig ofConfigRecords addEncryption
    rw [htls, hsome]
    dsimp only
    rw [(h tls hsome).configure_eq, (h tls hsome).configureRecords_eq]
    exact ⟨rfl, rfl⟩

end Client

/-! ## The token along a row of requests -/

namespace Http

def Request.tokens (r : Request) : List Bytes :=
  (r.headers.filter fun h => h.name == authToken).map Header.value

theorem Request.next?_tokens {r next : Request} {answer : Response}
    (h : r.next? answer = some next) : next.tokens = r.tokens := by
  unfold next? at h
  split at h
  · cases h
  · simp only [Option.bind_eq_some_iff, Option.map_eq_some_iff] at h
    obtain ⟨_, _, _, _, rfl⟩ := h
    split
    · rfl
    · unfold tokens Headers.without
      rw [List.filter_filter]
      congr 1
      refine List.filter_congr fun h _ => ?_
      -- the header that goes with the body is not the one of the token
      cases hname : h.name == authToken with
      | false => rfl
      | true =>
        rw [beq_iff_eq.1 hname]
        rfl

theorem Trail.tokens_eq {r : Request} {rs : List Request} {script : List Reply}
    (h : Trail (r :: rs) script) : ∀ q ∈ r :: rs, q.tokens = r.tokens := by
  induction rs generalizing r script with
  | nil =>
    intro q hq
    rw [List.mem_singleton.1 hq]
  | cons next rs ih =>
    cases h with
    | hop h rest =>
      intro q hq
      rcases List.mem_cons.1 hq with rfl | hq
      · rfl
      · rw [ih rest q hq, Request.next?_tokens h]

theorem follow_tokens (client : HttpClient) (n : Nat) (r : Request) (p : Peer) :
    ∀ q ∈ (follow client n r p).received, q.tokens = r.tokens := by
  rcases follow_received client n r p with h | ⟨rs, h, -, htrail⟩ <;> rw [h]
  · exact fun _ hq => absurd hq List.not_mem_nil
  · exact htrail.tokens_eq

theorem handOver_tokens (client : HttpClient) (address body : String) (p : Peer) :
    ∀ q ∈ (handOver client address body p).received, q.tokens = [] := by
  rcases handOver_received client address body p with h | ⟨url, rs, -, h, -, htrail⟩ <;> rw [h]
  · exact fun _ hq => absurd hq List.not_mem_nil
  · intro q hq
    rw [htrail.tokens_eq q hq]
    rfl

end Http

namespace Command

/-! ## One token -/

/-- What a token is obtained for: nothing more, or the request to a url. -/
def spend (url : Option Url) (token : Token) (w : World) : Except String Unit × World :=
  match url with
  | none => (.ok (), w)
  | some url =>
    match Client.withToken [] token.id with
    | .error e => (.error e.message, w)
    | .ok headers => probe url headers w

/-- One exchange, and what its token is for. -/
def pursue (c : Client) (url : Option Url) (w : World) : Except String Unit × World :=
  match (c.authenticator.authenticate w).1 with
  | .error e => (.error e.message, (c.authenticate w).2.2)
  | .ok token => spend url token (c.authenticate w).2.2

/-- Without a token the client of either kind obtains one, and the rest is the same. -/
theorem obtain_eq {c : Client} (hc : c.cache = none) (kind : ClientKind) (w : World)
    (now : Time.Instant) (url : Option Url) :
    obtain ⟨kind, c, w⟩ now url =
      ((pursue c url w).1, ⟨kind, (c.authenticate w).2.1, (pursue c url w).2⟩) := by
  have hadd : Session.addAuthentication ⟨kind, c, w⟩ now [] = c.addAuthentication [] w := by
    cases kind with
    | onDemand => rfl
    -- the age of a token is asked for only where one is kept
    | keepalive => exact Client.keepalive_of_none hc
  rw [c.addAuthentication_of_none w hc] at hadd
  have herror := @c.authenticate_error w
  have hok := @c.authenticate_ok w
  unfold obtain pursue
  rw [hadd]
  generalize (c.authenticator.authenticate w).1 = granted at herror hok
  generalize c.authenticate w = r at herror hok
  obtain ⟨result, client, world⟩ := r
  dsimp only at herror hok ⊢
  cases granted with
  | error e =>
    obtain ⟨rfl, -⟩ := herror rfl
    cases url <;> rfl
  | ok token =>
    obtain ⟨rfl, hcache⟩ := hok rfl
    cases url with
    | none => rfl
    | some url =>
      simp only [Except.bind, Client.inject, hcache, spend]
      cases Client.withToken [] token.id <;> rfl

def probed (url : Option Url) (token : Token) (peer : Http.Peer) : List Http.Request :=
  match url, Http.headerValue? token.id with
  | some url, some value =>
    if url.isWeb then
      (Http.send (.plain true none) ⟨.get, url, [⟨Http.authToken, value, true⟩], none⟩ peer).received
    else []
  | _, _ => []

theorem probed_tokens (url : Option Url) (token : Token) (peer : Http.Peer) :
    ∀ q ∈ probed url token peer, q.tokens = [Text.Utf8.encode token.id] := by
  unfold probed
  split
  · next url value hvalue =>
    obtain ⟨rfl, -⟩ := Http.headerValue?_eq_some_iff.1 hvalue
    split
    · exact Http.follow_tokens _ _ _ peer
    · exact fun _ hq => absurd hq List.not_mem_nil
  · exact fun _ hq => absurd hq List.not_mem_nil

/-- The request to a url uses up replies of the peer, and no more than a record comes of it. -/
theorem probe_world (url : Url) (headers : Http.Headers) (w : World) :
    (probe url headers w).2.metrics = w.metrics ∧
      (probe url headers w).2.received = w.received ++
        if url.isWeb then (Http.send (.plain true none) ⟨.get, url, headers, none⟩ w.peer).received
        else [] := by
  unfold probe World.send
  cases url.isWeb with
  | false => exact ⟨rfl, (List.append_nil _).symm⟩
  | true =>
    generalize Http.send (.plain true none) ⟨.get, url, headers, none⟩ w.peer = e
    obtain ⟨_ | _, peer, received⟩ := e <;> exact ⟨rfl, rfl⟩

theorem spend_metrics (url : Option Url) (token : Token) (w : World) :
    (spend url token w).2.metrics = w.metrics := by
  unfold spend
  split
  · rfl
  · split
    · rfl
    · exact (probe_world _ _ w).1

theorem spend_received (url : Option Url) (token : Token) (w : World) :
    (spend url token w).2.received = w.received ++ probed url token w.peer := by
  unfold spend probed Client.withToken
  cases url with
  | none => exact (List.append_nil _).symm
  | some url =>
    cases Http.headerValue? token.id with
    | none => exact (List.append_nil _).symm
    | some value => exact (probe_world url _ w).2

section
variable (c : Client) (url : Option Url) (w : World)

/-- Whatever the token is for, the exchange alone is counted. -/
theorem pursue_metrics : (pursue c url w).2.metrics =
    c.authenticator.counted (c.authenticator.authenticate w).1 w.metrics := by
  have hworld : (c.authenticate w).2.2.metrics =
      c.authenticator.counted (c.authenticator.authenticate w).1 w.metrics := by
    rw [c.authenticate_world, Authenticator.authenticate_eq]
  unfold pursue
  cases h : (c.authenticator.authenticate w).1 with
  | error e => rw [hworld, h]
  | ok token => rw [spend_metrics, hworld, h]

theorem pursue_of_error {e : AuthError} (h : (c.authenticator.authenticate w).1 = .error e) :
    (pursue c url w).1 = .error e.message ∧ (pursue c url w).2.received =
      w.received ++ (c.authenticator.exchanged w.peer).received := by
  unfold pursue
  rw [h]
  dsimp only
  rw [c.authenticate_world, Authenticator.authenticate_eq]
  exact ⟨rfl, rfl⟩

theorem pursue_of_ok {token : Token} (h : (c.authenticator.authenticate w).1 = .ok token) :
    (pursue c url w).1 = (spend url token (c.authenticate w).2.2).1 ∧
      (pursue c url w).2.received = w.received ++ (c.authenticator.exchanged w.peer).received ++
        probed url token (c.authenticator.exchanged w.peer).peer := by
  unfold pursue
  rw [h]
  refine ⟨rfl, ?_⟩
  dsimp only
  rw [spend_received, c.authenticate_world, Authenticator.authenticate_eq]

end

/-! ## Two runs -/

/-- The run comes to have those arguments and that configuration. -/
structure Invocation.Loads (i : Invocation) (a : Arguments) (config : ServiceConfig) : Prop where
  arguments : Arguments.parse i.arguments i.env = .ok a
  config : ServiceConfig.load i.around.files i.env a.config = .ok config

/-- The runs are asked for the same and meet the same, but for the renewal of tokens. They may find
their configurations in different places, and run at different times. -/
structure AskAlike (i j : Invocation) (a b : Arguments) (config config' : ServiceConfig) : Prop where
  renewal : ∃ on, config' = config.withKeepalive on
  material : config.ReadAlike i.around.files j.around.files
  peer : j.peer = i.peer
  logLevel : b.logLevel = a.logLevel
  probe : b.probe = a.probe
  printMetrics : b.printMetrics = a.printMetrics

theorem Invocation.Loads.run_eq {i : Invocation} {a : Arguments} {config : ServiceConfig}
    (h : i.Loads a config) : run i = runWith i a config := by
  unfold run
  rw [h.arguments]
  dsimp only
  rw [h.config]

/-- What a run tells when it has come to an end; the token that is kept is told of. -/
def told (settings : LogSettings) (printMetrics : Bool) (kept : TokenCache) :
    Except String Unit × World → Report
  | (.error e, w) =>
    ⟨1, some e, settings.format, w.records.filter (passes settings.level), [], w.received⟩
  | (.ok _, w) =>
    let w := w.log (kept.map tokenRecord).toList
    ⟨0, none, settings.format, w.records.filter (passes settings.level),
      if printMetrics then w.metrics.lines else [], w.received⟩

section
variable (settings : LogSettings) (printMetrics : Bool) (kept : TokenCache)
  {r : Except String Unit × World}

theorem told_received : (told settings printMetrics kept r).received = r.2.received := by
  obtain ⟨_ | _, _⟩ := r <;> rfl

theorem told_of_error {e : String} (h : r.1 = .error e) :
    (told settings printMetrics kept r).exit = 1 ∧
      (told settings printMetrics kept r).error = some e ∧
      (told settings printMetrics kept r).output = [] := by
  obtain ⟨_, _⟩ := r
  cases h
  exact ⟨rfl, rfl, rfl⟩

theorem told_of_ok (h : r.1 = .ok ()) :
    (told settings printMetrics kept r).exit = 0 ∧
      (told settings printMetrics kept r).error = none ∧
      (told settings printMetrics kept r).output = if printMetrics then r.2.metrics.lines else [] := by
  obtain ⟨_, _⟩ := r
  cases h
  exact ⟨rfl, rfl, rfl⟩

end

/-- The world in which the client of a run begins. -/
def begun (i : Invocation) (config : ServiceConfig) : World :=
  (World.start i.peer).log (Client.ofConfigRecords i.around.files config)

theorem begun_peer (i : Invocation) (config : ServiceConfig) : (begun i config).peer = i.peer := rfl

theorem begun_received (i : Invocation) (config : ServiceConfig) : (begun i config).received = [] := rfl

section
variable {i : Invocation} {a : Arguments} {config : ServiceConfig}

theorem runWith_of_error {e : AuthError} (h : Client.ofConfig i.around.files config = .error e) :
    runWith i a config = told (config.runLogSettings a.logLevel) a.printMetrics none
      (.error e.message, begun i config) := by
  unfold runWith
  rw [h]
  rfl

theorem runWith_of_ok {c : Client} (h : Client.ofConfig i.around.files config = .ok c) :
    runWith i a config = told (config.runLogSettings a.logLevel) a.printMetrics
      (c.authenticate (begun i config)).2.1.cache (pursue c a.probe (begun i config)) := by
  unfold runWith
  rw [h]
  dsimp only
  rw [← begun, obtain_eq (Client.follows_of_ofConfig h).cache]
  generalize pursue c a.probe (begun i config) = r
  generalize (c.authenticate (begun i config)).2.1 = client
  obtain ⟨_ | _, w⟩ := r <;> rfl

end

theorem AskAlike.runWith_eq {i j : Invocation} {a b : Arguments} {config config' : ServiceConfig}
    (h : AskAlike i j a b config config') : runWith j b config' = runWith i a config := by
  obtain ⟨on, rfl⟩ := h.renewal
  obtain ⟨hconfig, hrecords⟩ := Client.ofConfig_withKeepalive h.material on
  have hsettings : (config.withKeepalive on).runLogSettings b.logLevel =
      config.runLogSettings a.logLevel := by
    rw [h.logLevel]
    rfl
  have hbegun : begun j (config.withKeepalive on) = begun i config := by
    unfold begun
    rw [hrecords, h.peer]
  cases hc : Client.ofConfig i.around.files config with
  | error e =>
    rw [runWith_of_error hc, runWith_of_error (hconfig.trans hc), hsettings, hbegun, h.printMetrics]
  | ok c =>
    rw [runWith_of_ok hc, runWith_of_ok (hconfig.trans hc), hsettings, hbegun, h.printMetrics, h.probe]

/-- What a run with a client comes to: the exchange, its result, and then the request to the url. -/
structure Course (i : Invocation) (a : Arguments) (config : ServiceConfig) (c : Client)
    (exchange : Http.Exchanged) (result : Except AuthError Token) : Prop where
  /-- A client of either kind attempts one exchange and renews no token, and that is what is printed. -/
  once : ∀ kind, let s := (obtain ⟨kind, c, begun i config⟩ i.around.now a.probe).2
    s.world.metrics.attempts = 1 ∧ s.world.metrics.refreshes = 0 ∧
      ((run i).exit = 0 → (run i).output = if a.printMetrics then s.world.metrics.lines else [])
  refused : ∀ e, result = .error e →
    (run i).exit = 1 ∧ (run i).error = some e.message ∧ (run i).received = exchange.received
  issued : ∀ token, result = .ok token →
    (run i).received = exchange.received ++ probed a.probe token exchange.peer ∧
      (a.probe = none → (run i).exit = 0 ∧ (run i).error = none)
  /-- The exchange is run without a token, and each request to the url has the id of the new one. -/
  bare : ∀ q ∈ exchange.received, q.tokens = []
  bearing : ∀ token, ∀ q ∈ probed a.probe token exchange.peer, q.tokens = [Text.Utf8.encode token.id]
  printed : (run i).exit = 0 → a.printMetrics = true →
    "keystoneauth_token_refreshes_total 0" ∈ (run i).output

theorem refreshes_mem_lines {m : Metrics} (h : m.refreshes = 0) :
    "keystoneauth_token_refreshes_total 0" ∈ m.lines := by
  have hfamily : ⟨"token_refreshes_total", "Cached tokens discarded at half-life", "counter", "",
      [⟨[], (0 : Nat)⟩]⟩ ∈ m.families := by
    unfold Metrics.families
    rw [h]
    simp
  refine List.mem_flatMap.2 ⟨_, hfamily, ?_⟩
  decide +kernel

theorem course {i : Invocation} {a : Arguments} {config : ServiceConfig} {c : Client}
    (hi : i.Loads a config) (h : Client.ofConfig i.around.files config = .ok c) :
    Course i a config c (c.authenticator.exchanged i.peer)
      (c.authenticator.strategy.conclude (c.authenticator.exchanged i.peer).outcome) := by
  have hgranted := c.authenticator.authenticate_outcome (begun i config)
  rw [begun_peer] at hgranted
  have hrun := hi.run_eq.trans (runWith_of_ok h)
  have hmetrics := pursue_metrics c a.probe (begun i config)
  have hcounts : (pursue c a.probe (begun i config)).2.metrics.attempts = 1 ∧
      (pursue c a.probe (begun i config)).2.metrics.refreshes = 0 := by
    rw [hmetrics, Authenticator.counted_attempts, Authenticator.counted_refreshes]
    exact ⟨rfl, rfl⟩
  have houtput (hexit : (run i).exit = 0) : (run i).output =
      if a.printMetrics then (pursue c a.probe (begun i config)).2.metrics.lines else [] := by
    rw [hrun] at hexit ⊢
    cases hresult : (pursue c a.probe (begun i config)).1 with
    | error e =>
      rw [(told_of_error _ _ _ hresult).1] at hexit
      cases hexit
    | ok => exact (told_of_ok _ _ _ hresult).2.2
  exact {
    once := by
      intro kind s
      have hs : s.world = (pursue c a.probe (begun i config)).2 := by
        simp only [s, obtain_eq (Client.follows_of_ofConfig h).cache]
      rw [hs]
      exact ⟨hcounts.1, hcounts.2, houtput⟩
    refused := by
      intro e he
      obtain ⟨hresult, hreceived⟩ := pursue_of_error c a.probe _ (hgranted.trans he)
      rw [begun_peer, begun_received, List.nil_append] at hreceived
      obtain ⟨hexit, herror, -⟩ := told_of_error (config.runLogSettings a.logLevel) a.printMetrics
        (c.authenticate (begun i config)).2.1.cache hresult
      rw [hrun, told_received]
      exact ⟨hexit, herror, hreceived⟩
    issued := by
      intro token htoken
      obtain ⟨hresult, hreceived⟩ := pursue_of_ok c a.probe _ (hgranted.trans htoken)
      rw [begun_peer, begun_received, List.nil_append] at hreceived
      rw [hrun, told_received]
      refine ⟨hreceived, fun hnone => ?_⟩
      rw [hnone] at hresult ⊢
      obtain ⟨hexit, herror, -⟩ := told_of_ok (config.runLogSettings a.logLevel) a.printMetrics
        (c.authenticate (begun i config)).2.1.cache hresult
      exact ⟨hexit, herror⟩
    bare := Http.handOver_tokens _ _ _ i.peer
    bearing := fun token => probed_tokens a.probe token _
    printed := by
      intro hexit hprint
      rw [houtput hexit, hprint, if_pos rfl]
      exact refreshes_mem_lines hcounts.2 }

theorem AskAlike.switched (i : Invocation) (a : Arguments) (config : ServiceConfig) (on : Bool) :
    AskAlike i i a a config (config.withKeepalive on) :=
  ⟨⟨on, rfl⟩, (fun _ _ _ _ => rfl), rfl, rfl, rfl, rfl⟩

/-- Whether tokens are renewed makes no difference to a run of the command. -/
theorem run_either_kind {i j : Invocation} {a b : Arguments} {config config' : ServiceConfig}
    (hi : i.Loads a config) (hj : j.Loads b config') (h : AskAlike i j a b config config') :
    run j = run i ∧ (∀ on, runWith i a (config.withKeepalive on) = run i) ∧
      (∀ e, Client.ofConfig i.around.files config = .error e →
        (run i).exit = 1 ∧ (run i).error = some e.message ∧ (run i).received = [] ∧
          (run i).output = []) ∧
      ∀ c, Client.ofConfig i.around.files config = .ok c →
        Course i a config c (c.authenticator.exchanged i.peer)
          (c.authenticator.strategy.conclude (c.authenticator.exchanged i.peer).outcome) := by
  refine ⟨?_, fun on => ?_, fun e he => ?_, fun c hc => course hi hc⟩
  · rw [hj.run_eq, hi.run_eq, h.runWith_eq]
  · rw [hi.run_eq, (AskAlike.switched i a config on).runWith_eq]
  · rw [hi.run_eq, runWith_of_error he]
    exact ⟨rfl, rfl, rfl, rfl⟩

/-- A configuration that says whether tokens are renewed. -/
def renewalText (keepalive : String) : String :=
  "settings: \x7bkeepalive: " ++ keepalive ++ "\x7d\n" ++
    "keystone: \x7bauth_url: 'http://k', username: u, password: p\x7d\n"

/-- A token whose times are no timestamps. -/
def timelessToken : String :=
  "\x7b\"access\":\x7b\"token\":\x7b\"id\":\"t\",\"issued_at\":\"once\",\"expires\":\"never\"\x7d\x7d\x7d"

/-- A run with one of two configurations, which sends a request with the token it is granted. -/
def timelessRun (config : String) : Invocation where
  arguments := ["--config", config, "--probe", "http://service/", "--print-metrics"]
  env := []
  around := ⟨[("on", Text.Utf8.encode (renewalText "true")),
    ("off", Text.Utf8.encode (renewalText "false"))], ⟨1700000000, 0⟩⟩
  peer := ⟨true, [], [], [.of 200 [] (Text.Utf8.encode timelessToken) true, .of 200 [] [] true]⟩

def timelessConfig (keepalive : Bool) : ServiceConfig :=
  ⟨⟨some .default, none, keepalive⟩, ⟨"http://k", .v2, "", "", "u", "p", none, "", ""⟩, none⟩

def timelessArguments (config : String) : Arguments :=
  ⟨config, none, (Url.parse "http://service/").toOption, true⟩

/-- When the token was issued is not asked for before it is on the request. -/
theorem run_either_kind_of_timeless :
    (timelessRun "on").Loads (timelessArguments "on") (timelessConfig true) ∧
      (timelessRun "off").Loads (timelessArguments "off") (timelessConfig false) ∧
      run (timelessRun "off") = run (timelessRun "on") ∧
      (run (timelessRun "on")).exit = 0 ∧
      (run (timelessRun "on")).received.map Http.Request.tokens = [[], [Text.Utf8.encode "t"]] := by
  have hon : (timelessRun "on").Loads (timelessArguments "on") (timelessConfig true) :=
    ⟨ok_of_toOption (by decide +kernel), ok_of_toOption (by decide +kernel)⟩
  have hoff : (timelessRun "off").Loads (timelessArguments "off") (timelessConfig false) :=
    ⟨ok_of_toOption (by decide +kernel), ok_of_toOption (by decide +kernel)⟩
  have halike : AskAlike (timelessRun "on") (timelessRun "off") (timelessArguments "on")
      (timelessArguments "off") (timelessConfig true) (timelessConfig false) :=
    ⟨⟨false, rfl⟩, (fun _ h => nomatch h), rfl, rfl, rfl, rfl⟩
  have hsame := (run_either_kind hon hoff halike).1
  refine ⟨hon, hoff, hsame, ?_, ?_⟩ <;> rw [hon.run_eq] <;> decide +kernel

end Command

end TokenKeeper
