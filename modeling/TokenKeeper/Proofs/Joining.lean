import TokenKeeper.Proofs.Scheme
import TokenKeeper.Proofs.Transport

/-!
# Addresses of requests over a run of changes

An address is the base without the slashes at its end, one slash, and the suffix. Bringing a text to TLS
looks at its beginning alone, and no slash is part of what it looks for (`secureScheme_append`), so it
makes no difference whether the base is brought to TLS or the address made from it
(`secureScheme_joinUrl`). Over a run of changes the first policy that is followed brings the address to
TLS, and nothing changes it afterwards (`Transport.url_run`).
-/

namespace TokenKeeper

variable {url v base : String} {n : Nat}

/-! ## The step to TLS -/

/-- A text and what it comes to over TLS: another `s` behind `http` where there is none, or the same. -/
inductive Secured : String → String → Prop
  | kept {url : String} (h : url.startsWith "https" = true ∨ url.startsWith "http" = false) :
      Secured url url
  | upgraded {rest : String} (h : rest.startsWith "s" = false) :
      Secured ("http" ++ rest) ("https" ++ rest)

theorem startsWith_iff_exists {start : String} :
    url.startsWith start = true ↔ ∃ rest, url = start ++ rest := by
  rw [String.startsWith_string_iff]
  constructor
  · rintro ⟨rest, hrest⟩
    refine ⟨String.ofList rest, String.toList_inj.1 ?_⟩
    rw [String.toList_append, String.toList_ofList, hrest]
  · rintro ⟨rest, rfl⟩
    rw [String.toList_append]
    exact List.prefix_append _ _

theorem startsWith_append_self (start rest : String) : (start ++ rest).startsWith start = true :=
  startsWith_iff_exists.2 ⟨rest, rfl⟩

theorem https_append (rest : String) : "https" ++ rest = "http" ++ ("s" ++ rest) := by
  rw [← String.append_assoc]
  rfl

theorem startsWith_https (rest : String) : ("http" ++ rest).startsWith "https" = rest.startsWith "s" := by
  rw [show ("https" : String) = "http" ++ "s" from rfl, Bool.eq_iff_iff, String.startsWith_string_iff,
    String.startsWith_string_iff, String.toList_append, String.toList_append,
    List.prefix_append_right_inj]

theorem not_kept {rest : String} (h : rest.startsWith "s" = false) :
    ¬ (("http" ++ rest).startsWith "https" = true ∨ ("http" ++ rest).startsWith "http" = false) := by
  rw [startsWith_https, h, startsWith_append_self]
  simp

theorem secureScheme_secured (url : String) : Secured url (secureScheme url) := by
  unfold secureScheme
  split
  · next rest hurl =>
    refine .kept (.inl ?_)
    rw [String.startsWith_string_iff, hurl]
    exact ⟨rest, rfl⟩
  · next rest hnot hurl =>
    have hs : (String.ofList rest).startsWith "s" = false := by
      rw [String.startsWith_string_eq_false_iff]
      rintro ⟨more, hmore⟩
      have hrest : rest = 's' :: more := by rw [← String.toList_ofList (l := rest), ← hmore]; rfl
      exact hnot more hrest
    have hhttp : url = "http" ++ String.ofList rest := by
      rw [← String.toList_inj, hurl]
      simp
    have hhttps : String.ofList ('h' :: 't' :: 't' :: 'p' :: 's' :: rest) =
        "https" ++ String.ofList rest := by
      rw [← String.toList_inj]
      simp
    rw [hhttps, hhttp]
    exact .upgraded hs
  · next hhttps hhttp =>
    refine .kept (.inr ?_)
    rw [String.startsWith_string_eq_false_iff]
    rintro ⟨rest, hrest⟩
    exact hhttp rest hrest.symm

theorem Secured.unique (h : Secured url v) {w : String} (h' : Secured url w) : w = v := by
  cases h with
  | kept h =>
    cases h' with
    | kept => rfl
    | upgraded hs => exact absurd h (not_kept hs)
  | @upgraded rest hs =>
    generalize hurl : "http" ++ rest = url at h'
    cases h' with
    | kept h => exact absurd (hurl ▸ h) (not_kept hs)
    | upgraded =>
      obtain rfl := (String.append_right_inj _).1 hurl
      rfl

theorem Secured.eq (h : Secured url v) : secureScheme url = v :=
  h.unique (secureScheme_secured url)

theorem secureScheme_idem (url : String) : secureScheme (secureScheme url) = secureScheme url := by
  have hsecured := secureScheme_secured url
  generalize secureScheme url = v at hsecured ⊢
  cases hsecured with
  | kept h => exact (Secured.kept h).eq
  | @upgraded rest hs => exact (Secured.kept (.inl (startsWith_append_self "https" rest))).eq

theorem startsWith_secureScheme (url : String) :
    (secureScheme url).startsWith "https" = url.startsWith "http" := by
  have hweaker (h : url.startsWith "https" = true) : url.startsWith "http" = true := by
    obtain ⟨rest, rfl⟩ := startsWith_iff_exists.1 h
    rw [https_append, startsWith_append_self]
  have hsecured := secureScheme_secured url
  generalize secureScheme url = v at hsecured ⊢
  cases hsecured with
  | kept h =>
    rcases h with h | h
    · rw [h, hweaker h]
    · rw [h, ← Bool.not_eq_true]
      exact fun hhttps => absurd (hweaker hhttps) (by rw [h]; exact Bool.false_ne_true)
  | @upgraded rest hs => rw [startsWith_append_self, startsWith_append_self]

/-- Nothing, or something that begins with a slash. -/
def BeginsWithSlash (s : String) : Prop := ∀ c ∈ s.toList.head?, c = '/'

/-- A start without a slash is not found any later than the first slash. -/
theorem startsWith_append_iff {x y start : String} (hy : BeginsWithSlash y)
    (hstart : '/' ∉ start.toList) : (x ++ y).startsWith start = x.startsWith start := by
  rw [Bool.eq_iff_iff, String.startsWith_string_iff, String.startsWith_string_iff, String.toList_append]
  constructor
  · intro h
    rcases List.prefix_or_prefix_of_prefix h (List.prefix_append x.toList y.toList) with h | ⟨rest, hrest⟩
    · exact h
    · cases rest with
      | nil => exact ⟨[], by rw [← hrest, List.append_nil, List.append_nil]⟩
      | cons c rest =>
        rw [← hrest, List.prefix_append_right_inj] at h
        obtain ⟨more, hmore⟩ := h
        obtain rfl := hy c (by rw [← hmore]; rfl)
        exact absurd (by rw [← hrest]; simp) hstart
  · exact fun h => h.trans (List.prefix_append _ _)

theorem secureScheme_append (x : String) {y : String} (hy : BeginsWithSlash y) :
    secureScheme (x ++ y) = secureScheme x ++ y := by
  have hsecured := secureScheme_secured x
  generalize secureScheme x = v at hsecured
  -- what the step is for the first part it is for the whole, as it is unique
  refine Secured.eq ?_
  cases hsecured with
  | kept h =>
    refine .kept ?_
    rwa [startsWith_append_iff hy (by decide), startsWith_append_iff hy (by decide)]
  | @upgraded rest hs =>
    rw [String.append_assoc, String.append_assoc]
    exact .upgraded (by rwa [startsWith_append_iff hy (by decide)])

/-! ## The slash between base and suffix -/

def slashes (n : Nat) : String := String.ofList (List.replicate n '/')

def IsBase (s : String) : Prop := s.toList.getLast? ≠ some '/'

theorem slashes_add (m n : Nat) : slashes (m + n) = slashes m ++ slashes n := by
  unfold slashes
  rw [List.replicate_add, String.ofList_append]

theorem beginsWithSlash_slashes (n : Nat) : BeginsWithSlash (slashes n) := by
  intro c hc
  unfold slashes at hc
  rw [String.toList_ofList] at hc
  exact List.eq_of_mem_replicate (List.mem_of_mem_head? hc)

theorem beginsWithSlash_append (suffix : String) : BeginsWithSlash ("/" ++ suffix) := by
  intro c hc
  rw [String.toList_append] at hc
  exact (Option.some.inj hc).symm

theorem isBase_dropTrailingSlashes (url : String) : IsBase (dropTrailingSlashes url) := by
  intro h
  rw [toList_dropTrailingSlashes, List.getLast?_eq_some_iff] at h
  obtain ⟨more, hmore⟩ := h
  have hne : url.toList.rdropWhile (· == '/') ≠ [] := by simp [hmore]
  refine List.rdropWhile_last_not (· == '/') url.toList hne ?_
  simp [hmore]

theorem exists_slashes (url : String) : ∃ n, url = dropTrailingSlashes url ++ slashes n := by
  have hslash (c : Char) (hc : c ∈ url.toList.rtakeWhile (· == '/')) : c = '/' := by
    have hc := List.mem_rtakeWhile_imp hc
    exact beq_iff_eq.1 hc
  refine ⟨(url.toList.rtakeWhile (· == '/')).length, ?_⟩
  rw [← String.toList_inj, String.toList_append, toList_dropTrailingSlashes, slashes,
    String.toList_ofList, ← List.eq_replicate_of_mem hslash]
  exact List.rdropWhile_append_rtakeWhile.symm

theorem dropTrailingSlashes_append (hbase : IsBase base) (n : Nat) :
    dropTrailingSlashes (base ++ slashes n) = base := by
  rw [← String.toList_inj, toList_dropTrailingSlashes, String.toList_append, slashes,
    String.toList_ofList]
  induction n with
  | zero =>
    rw [List.replicate_zero, List.append_nil, List.rdropWhile_eq_self_iff]
    intro hne hlast
    rw [beq_iff_eq] at hlast
    exact hbase (by rw [List.getLast?_eq_some_getLast hne, hlast])
  | succ n ih =>
    rw [List.replicate_succ', ← List.append_assoc, List.rdropWhile_concat_pos _ _ _ rfl, ih]

theorem joinUrl_append (hbase : IsBase base) (n : Nat) (suffix : String) :
    joinUrl (base ++ slashes n) suffix = base ++ "/" ++ suffix := by
  unfold joinUrl
  rw [dropTrailingSlashes_append hbase]

theorem secureScheme_isBase (hbase : IsBase base) : IsBase (secureScheme base) := by
  have hsecured := secureScheme_secured base
  generalize secureScheme base = v at hsecured ⊢
  cases hsecured with
  | kept => exact hbase
  | @upgraded rest hs =>
    unfold IsBase at hbase ⊢
    rw [String.toList_append, List.getLast?_append] at hbase ⊢
    cases hrest : rest.toList.getLast? with
    | none => decide
    | some c => simpa [hrest] using hbase

/-- Bringing the base to TLS is bringing the address to TLS. -/
theorem secureScheme_joinUrl (url suffix : String) :
    secureScheme (joinUrl url suffix) = joinUrl (secureScheme url) suffix := by
  obtain ⟨n, hurl⟩ := exists_slashes url
  have hbase := isBase_dropTrailingSlashes url
  generalize dropTrailingSlashes url = base at hurl hbase
  calc secureScheme (joinUrl url suffix)
      = secureScheme (base ++ ("/" ++ suffix)) := by
        rw [hurl, joinUrl_append hbase, String.append_assoc]
    _ = secureScheme base ++ "/" ++ suffix := by
        rw [secureScheme_append base (beginsWithSlash_append suffix), String.append_assoc]
    _ = joinUrl (secureScheme base ++ slashes n) suffix := by
        rw [joinUrl_append (secureScheme_isBase hbase)]
    _ = joinUrl (secureScheme url) suffix := by
        rw [hurl, secureScheme_append base (beginsWithSlash_slashes n)]

namespace Transport
variable {t : Transport} {suffix : String}

theorem url_of_secured {after : Transport} (h : after.authUrl = secureScheme t.authUrl) :
    after.url suffix = secureScheme (t.url suffix) := by
  unfold Transport.url
  rw [h, secureScheme_joinUrl]

/-! ## A run of changes -/

/-- A call that changes a transport. -/
inductive Change
  | configure (files : Files) (tls : TlsFiles)
  | forceInsecure

/-- The transport after a call. One that fails leaves it as it is. -/
def apply (t : Transport) : Change → Transport
  | .configure files tls =>
    match t.configure files tls with
    | .ok after => after
    | .error _ => t
  | .forceInsecure => t.forceInsecure

def run (t : Transport) (changes : List Change) : Transport := changes.foldl apply t

/-- The call is one that follows a policy, and it succeeds. -/
def Configures (t : Transport) : Change → Prop
  | .configure files tls => ∃ after, t.configure files tls = .ok after
  | .forceInsecure => False

/-- Some call of the run follows a policy and succeeds. -/
def Configured (t : Transport) : List Change → Prop
  | [] => False
  | change :: changes => t.Configures change ∨ (t.apply change).Configured changes

theorem Configures.authUrl_apply {change : Change} (h : t.Configures change) :
    (t.apply change).authUrl = secureScheme t.authUrl := by
  cases change with
  | configure files tls =>
    obtain ⟨after, hafter⟩ := h
    simp only [apply, hafter]
    exact configure_authUrl hafter
  | forceInsecure => exact h.elim

theorem authUrl_apply_of_not {change : Change} (h : ¬ t.Configures change) :
    (t.apply change).authUrl = t.authUrl := by
  cases change with
  | configure files tls =>
    cases hafter : t.configure files tls with
    | ok after => exact absurd ⟨after, hafter⟩ h
    | error e => simp only [apply, hafter]
  | forceInsecure => exact forceInsecure_authUrl t

theorem authUrl_run_of_not {changes : List Change} (h : ¬ t.Configured changes) :
    (t.run changes).authUrl = t.authUrl := by
  induction changes generalizing t with
  | nil => rfl
  | cons change changes ih =>
    obtain ⟨hchange, hchanges⟩ := not_or.1 h
    calc (t.run (change :: changes)).authUrl
        = (t.apply change).authUrl := ih hchanges
      _ = t.authUrl := authUrl_apply_of_not hchange

theorem authUrl_run_of_secure (h : secureScheme t.authUrl = t.authUrl) (changes : List Change) :
    (t.run changes).authUrl = t.authUrl := by
  induction changes generalizing t with
  | nil => rfl
  | cons change changes ih =>
    have hsame : (t.apply change).authUrl = t.authUrl := by
      by_cases hchange : t.Configures change
      · rw [hchange.authUrl_apply, h]
      · exact authUrl_apply_of_not hchange
    calc (t.run (change :: changes)).authUrl
        = (t.apply change).authUrl := ih (by rw [hsame, h])
      _ = t.authUrl := hsame

theorem authUrl_run_of_configures {change : Change} (h : t.Configures change) (later : List Change) :
    (t.run (change :: later)).authUrl = secureScheme t.authUrl := by
  have hsecure : secureScheme (t.apply change).authUrl = (t.apply change).authUrl := by
    rw [h.authUrl_apply, secureScheme_idem]
  calc (t.run (change :: later)).authUrl
      = (t.apply change).authUrl := authUrl_run_of_secure hsecure later
    _ = secureScheme t.authUrl := h.authUrl_apply

/-- What the address of a request is, at any time. -/
structure Joins (t : Transport) : Prop where
  exists_base : ∀ suffix, ∃ base n, IsBase base ∧ t.authUrl = base ++ slashes n ∧
    t.url suffix = base ++ "/" ++ suffix
  same : ∀ (after : Transport) (base : String) (m n : Nat), t.authUrl = base ++ slashes m →
    after.authUrl = base ++ slashes n → ∀ suffix, after.url suffix = t.url suffix

theorem joins (t : Transport) : t.Joins where
  exists_base suffix := by
    obtain ⟨n, hn⟩ := exists_slashes t.authUrl
    exact ⟨_, n, isBase_dropTrailingSlashes t.authUrl, hn, rfl⟩
  same after base m n ht hafter suffix := by
    -- the text that both have in common may end in slashes itself
    obtain ⟨k, hk⟩ := exists_slashes base
    have hadd (m : Nat) : base ++ slashes m =
        dropTrailingSlashes base ++ slashes (k + m) := by
      rw [slashes_add, ← String.append_assoc, ← hk]
    unfold Transport.url
    rw [ht, hafter, hadd, hadd, joinUrl_append (isBase_dropTrailingSlashes base),
      joinUrl_append (isBase_dropTrailingSlashes base)]

/-- At any time of a run the address of a request has a single slash between base and suffix. Until a
policy is followed it stays, by the first that is followed it is brought to TLS, which at most puts an
`s` behind a leading `http`, and from then on it stays again. -/
theorem url_run (t : Transport) :
    (∀ changes, (t.run changes).Joins) ∧
    (∀ url, Secured url (secureScheme url) ∧ secureScheme (secureScheme url) = secureScheme url ∧
      (secureScheme url).startsWith "https" = url.startsWith "http") ∧
    ∀ earlier suffix, ¬ t.Configured earlier →
      (t.run earlier).url suffix = t.url suffix ∧
      ∀ change, (t.run earlier).Configures change → ∀ later,
        (t.run (earlier ++ change :: later)).url suffix = secureScheme ((t.run earlier).url suffix) := by
  refine ⟨fun changes => (t.run changes).joins, fun url => ?_, fun earlier suffix hearlier => ⟨?_, ?_⟩⟩
  · exact ⟨secureScheme_secured url, secureScheme_idem url, startsWith_secureScheme url⟩
  · unfold Transport.url
    rw [authUrl_run_of_not hearlier]
  · intro change hchange later
    refine url_of_secured ?_
    rw [run, List.foldl_append]
    exact authUrl_run_of_configures hchange later

/-- A policy that cannot be followed changes nothing, the next one does, and what comes behind it does
not. -/
theorem url_run_retried :
    ∃ (t : Transport) (missing insecure : Change), ¬ t.Configured [missing] ∧
      (t.run [missing]).Configures insecure ∧
      (t.run [missing, insecure, .forceInsecure]).url "tokens" = "https://keystone:5000/tokens" := by
  let t := new "http://keystone:5000/" none
  let missing := Change.configure [] ⟨some "ca.pem", none, none, false⟩
  let insecure := Change.configure [] ⟨none, none, none, true⟩
  have hmissing : ¬ t.Configured [missing] := by
    rintro (⟨after, h⟩ | h)
    · exact nomatch h
    · exact h
  have hinsecure : (t.run [missing]).Configures insecure := ⟨_, rfl⟩
  refine ⟨t, missing, insecure, hmissing, hinsecure, ?_⟩
  obtain ⟨-, hlater⟩ := (url_run t).2.2 [missing] "tokens" hmissing
  exact (hlater insecure hinsecure [.forceInsecure]).trans (by decide)

end Transport

end TokenKeeper
