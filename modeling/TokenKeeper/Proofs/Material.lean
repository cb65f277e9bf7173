import TokenKeeper.Proofs.Resolution

/-!
# Material that is asked for is used, or nothing is

What is wrong with each of the files, looked at for itself, stands in one order: the roots, the
certificate, its key, the pair of both (`TlsFiles.faults`). The first of these faults is the error of
the resolution (`TlsPolicy.resolve_eq_error_iff`). So a file that is asked for and cannot be used never
leads to a policy that does without it, and a certificate or a key alone is not even looked at.
-/

namespace TokenKeeper

namespace TlsFiles

/-- That a file cannot be read. -/
def unreadable? (files : Files) (path : String) : Option AuthError :=
  match files.read path with
  | .ok _ => none
  | .error f => some (.tlsConfig path f.message)

/-- What is wrong with a file of roots. -/
def rootsFault? (files : Files) (path : String) : Option AuthError :=
  match (files.read path).map Pem.sections with
  | .error f => some (.tlsConfig path f.message)
  | .ok (.error _) => some (.tlsConfig path TlsPolicy.unusable)
  | .ok (.ok sections) =>
    if ∃ s ∈ sections, s.kind = .certificate then none
    else some (.tlsConfig path "no PEM certificates found")

/-- That a certificate and a key can both be read, but are no pair. -/
def pairFault? (files : Files) (certPath keyPath : String) : Option AuthError :=
  match files.read certPath, files.read keyPath with
  | .ok cert, .ok key =>
    match (Pem.sections (cert ++ [10] ++ key)).toOption.bind TlsPolicy.pair? with
    | some _ => none
    | none => some (.tlsConfig (certPath ++ " + " ++ keyPath) TlsPolicy.unusable)
  | _, _ => none

/-- What is wrong with the roots that are asked for. -/
def rootsFaults (files : Files) (t : TlsFiles) : List AuthError :=
  (t.caFile.bind (rootsFault? files)).toList

/-- What is wrong with the identity that is asked for. -/
def identityFaults (files : Files) (t : TlsFiles) : List AuthError :=
  match t.certFile, t.keyFile with
  | some cert, some key => (unreadable? files cert).toList ++ (unreadable? files key).toList ++
      (pairFault? files cert key).toList
  | _, _ => []

/-- All that is wrong with what is asked for: first the roots, then the certificate, then its key,
then the pair. -/
def faults (files : Files) (t : TlsFiles) : List AuthError :=
  t.rootsFaults files ++ t.identityFaults files

end TlsFiles

namespace TlsPolicy
variable {files files' : Files} {t : TlsFiles} {e : AuthError} {path certPath keyPath : String}

theorem contents_eq_nil_iff {kind : Pem.Kind} {sections : List Pem.Section} :
    contents kind sections = [] ↔ ¬ ∃ s ∈ sections, s.kind = kind := by
  simp [contents, List.filter_eq_nil_iff]

theorem roots_of_loadRoots {roots : TrustRoots} (h : loadRoots files path = .ok roots) :
    roots.path = path ∧ roots.certificates ≠ [] := by
  obtain ⟨text, -, h⟩ := bind_eq_ok_iff.1 h
  split at h
  · cases h
  · split at h
    · cases h
    · next hne => cases h; exact ⟨rfl, hne⟩

theorem loadRoots_eq_error_iff :
    loadRoots files path = .error e ↔ TlsFiles.rootsFault? files path = some e := by
  unfold loadRoots readFile TlsFiles.rootsFault?
  cases files.read path with
  | error f => simp [Except.map, bind, Except.bind]
  | ok text =>
    simp only [mapError_ok, Except.map, bind, Except.bind]
    cases Pem.sections text with
    | error f => simp [throw, throwThe, MonadExceptOf.throw]
    | ok sections =>
      have hnil : contents .certificate sections = [] ↔ ¬ ∃ s ∈ sections, s.kind = .certificate :=
        contents_eq_nil_iff
      dsimp only
      split
      · next h => rw [if_neg (hnil.1 h)]; simp [throw, throwThe, MonadExceptOf.throw]
      · next h => rw [if_pos (Classical.not_not.1 (mt hnil.2 h))]; simp [pure, Except.pure]

theorem loadIdentity_eq_error_iff :
    loadIdentity files certPath keyPath = .error e ↔
      ((TlsFiles.unreadable? files certPath).toList ++ (TlsFiles.unreadable? files keyPath).toList ++
        (TlsFiles.pairFault? files certPath keyPath).toList).head? = some e := by
  unfold loadIdentity readFile TlsFiles.unreadable? TlsFiles.pairFault?
  cases files.read certPath with
  | error f => simp [bind, Except.bind]
  | ok cert =>
    cases files.read keyPath with
    | error f => simp [bind, Except.bind]
    | ok key =>
      simp only [mapError_ok, bind, Except.bind]
      cases (Pem.sections (cert ++ [10] ++ key)).toOption.bind pair? with
      | none => simp [throw, throwThe, MonadExceptOf.throw]
      | some pair => simp [pure, Except.pure]

theorem resolveRoots_eq_error_iff :
    resolveRoots files t = .error e ↔ (t.rootsFaults files).head? = some e := by
  unfold resolveRoots TlsFiles.rootsFaults
  cases t.caFile with
  | none => simp
  | some ca =>
    dsimp only
    rw [map_eq_error_iff, loadRoots_eq_error_iff]
    cases h : TlsFiles.rootsFault? files ca <;> simp [h]

theorem resolveIdentity_eq_error_iff :
    resolveIdentity files t = .error e ↔ (t.identityFaults files).head? = some e := by
  unfold resolveIdentity TlsFiles.identityFaults
  cases t.certFile with
  | none => simp
  | some cert =>
    cases t.keyFile with
    | none => simp
    | some key =>
      dsimp only
      rw [map_eq_error_iff, loadIdentity_eq_error_iff]

/-- The first of all faults is the error, whatever else is wrong. -/
theorem resolve_eq_error_iff (h : t.insecure = false) :
    resolve files t = .error e ↔ (t.faults files).head? = some e := by
  have hresolve : resolve files t = .error e ↔ resolveRoots files t = .error e ∨
      ∃ roots, resolveRoots files t = .ok roots ∧ resolveIdentity files t = .error e := by
    unfold resolve
    rw [if_neg (by rw [h]; exact Bool.false_ne_true)]
    refine bind_eq_error_iff.trans
      (or_congr_right (exists_congr fun roots => and_congr_right fun _ => ?_))
    refine bind_eq_error_iff.trans (or_iff_left ?_)
    rintro ⟨identity, -, hend⟩
    split at hend <;> cases hend
  rw [hresolve, resolveRoots_eq_error_iff, resolveIdentity_eq_error_iff, TlsFiles.faults]
  cases hroots : resolveRoots files t with
  | error e' =>
    have hhead := resolveRoots_eq_error_iff.1 hroots
    cases hfaults : t.rootsFaults files with
    | nil => rw [hfaults] at hhead; cases hhead
    | cons f fs => simp
  | ok roots =>
    have hnil : t.rootsFaults files = [] := by
      cases hfaults : t.rootsFaults files with
      | nil => rfl
      | cons f fs =>
        rw [resolveRoots_eq_error_iff.2 (by rw [hfaults]; rfl)] at hroots
        cases hroots
    simp [hnil]

/-- Whether a policy is resolved at all, it has the roots that are named and no others. -/
theorem roots_of_resolveRoots {roots : Option TrustRoots} (h : resolveRoots files t = .ok roots) :
    roots.map TrustRoots.path = t.caFile ∧ ∀ r ∈ roots, r.certificates ≠ [] := by
  unfold resolveRoots at h
  split at h
  · next ca hca =>
    obtain ⟨r, hr, rfl⟩ := map_eq_ok_iff.1 h
    obtain ⟨hpath, hne⟩ := roots_of_loadRoots hr
    rw [hca, Option.map_some, hpath]
    refine ⟨rfl, fun r' hr' => ?_⟩
    cases hr'
    exact hne
  · next hca =>
    cases h
    exact ⟨hca.symm, fun r hr => nomatch hr⟩

theorem identity_of_resolveIdentity {identity : Option ClientIdentity}
    (h : resolveIdentity files t = .ok identity) :
    (∃ i cert key, identity = some i ∧ t.certFile = some cert ∧ t.keyFile = some key ∧
      i.certPath = cert) ∨
    identity = none ∧ (t.certFile = none ∨ t.keyFile = none) := by
  unfold resolveIdentity at h
  split at h
  · next cert key hcert hkey =>
    obtain ⟨i, hi, rfl⟩ := map_eq_ok_iff.1 h
    exact .inl ⟨i, cert, key, rfl, hcert, hkey, certPath_of_loadIdentity hi⟩
  · next hnot =>
    cases h
    refine .inr ⟨rfl, ?_⟩
    cases hcert : t.certFile with
    | none => exact .inl rfl
    | some cert =>
      cases hkey : t.keyFile with
      | none => exact .inr rfl
      | some key => exact absurd hkey (hnot cert key hcert)

theorem resolveRoots_eq_none_iff : resolveRoots files t = .ok none ↔ t.caFile = none := by
  constructor
  · intro h
    exact (roots_of_resolveRoots h).1.symm
  · intro h
    rw [resolveRoots, h]

theorem resolveIdentity_eq_none_iff : resolveIdentity files t = .ok none ↔
    ¬ (t.certFile.isSome = true ∧ t.keyFile.isSome = true) := by
  constructor
  · rintro h ⟨hcert, hkey⟩
    rcases identity_of_resolveIdentity h with ⟨i, cert, key, hi, -⟩ | ⟨-, hnone | hnone⟩
    · cases hi
    · rw [hnone] at hcert; cases hcert
    · rw [hnone] at hkey; cases hkey
  · intro hpair
    unfold resolveIdentity
    split
    · next cert key hcert hkey => exact absurd ⟨by rw [hcert]; rfl, by rw [hkey]; rfl⟩ hpair
    · rfl

theorem resolveIdentity_of_isHalved (h : t.IsHalved) : resolveIdentity files t = .ok none :=
  resolveIdentity_eq_none_iff.2 fun hpair => h (hpair.1.trans hpair.2.symm)

theorem resolveRoots_congr (h : ∀ ca, t.caFile = some ca → files'.read ca = files.read ca) :
    resolveRoots files' t = resolveRoots files t := by
  unfold resolveRoots
  cases hca : t.caFile with
  | none => rfl
  | some ca => simp only [loadRoots, readFile, h ca hca]

theorem resolve_eq_default_iff (h : t.insecure = false) : resolve files t = .ok .default ↔
    t.caFile = none ∧ ¬ (t.certFile.isSome = true ∧ t.keyFile.isSome = true) := by
  rw [← @resolveRoots_eq_none_iff files t, ← @resolveIdentity_eq_none_iff files t,
    resolve_eq_ok_iff h]
  constructor
  · rintro ⟨roots, identity, hroots, hidentity, hp⟩
    split at hp
    · next hnone =>
      rw [Bool.and_eq_true, Option.isNone_iff_eq_none, Option.isNone_iff_eq_none] at hnone
      obtain ⟨rfl, rfl⟩ := hnone
      exact ⟨hroots, hidentity⟩
    · cases hp
  · rintro ⟨hroots, hidentity⟩
    exact ⟨none, none, hroots, hidentity, rfl⟩

theorem resolve_eq_of_parts {t' : TlsFiles} (h : t.insecure = false) (h' : t'.insecure = false)
    (hroots : resolveRoots files' t' = resolveRoots files t)
    (hidentity : resolveIdentity files' t' = resolveIdentity files t) :
    resolve files' t' = resolve files t := by
  unfold resolve
  rw [h, h', hroots, hidentity]

/-- What is asked for is what the policy does, or there is no policy. Without verification no file is
looked at. With it, roots that are named verify the peer, a certificate and key that are named are
presented, and one of them alone counts for nothing. The first fault of all is the error. -/
structure FailsClosed (files : Files) (t : TlsFiles) : Prop where
  insecure : t.insecure = true → resolve files t = .ok .insecure
  verifies : t.insecure = false → resolve files t ≠ .ok .insecure
  roots : t.insecure = false → ∀ ca, t.caFile = some ca →
    (∃ path reason, resolve files t = .error (.tlsConfig path reason)) ∨
    ∃ roots identity, resolve files t = .ok (.verified (some roots) identity) ∧
      roots.path = ca ∧ roots.certificates ≠ []
  identity : t.insecure = false → ∀ cert key, t.certFile = some cert → t.keyFile = some key →
    (∃ path reason, resolve files t = .error (.tlsConfig path reason)) ∨
    ∃ roots identity, resolve files t = .ok (.verified roots (some identity)) ∧
      identity.certPath = cert
  halved : t.insecure = false → t.IsHalved →
    (∀ p, resolve files t = .ok p → p.identity? = none) ∧
    resolve files t = resolve files { t with certFile := none, keyFile := none } ∧
    ∀ files', (∀ ca, t.caFile = some ca → files'.read ca = files.read ca) →
      resolve files' t = resolve files t
  default_iff : t.insecure = false → (resolve files t = .ok .default ↔
    t.caFile = none ∧ ¬ (t.certFile.isSome = true ∧ t.keyFile.isSome = true))
  error_iff : t.insecure = false → ∀ e, resolve files t = .error e ↔ (t.faults files).head? = some e

/-- Every resolution fails closed, whatever the files are. -/
theorem resolve_failsClosed (files : Files) (t : TlsFiles) : FailsClosed files t where
  insecure h := by rw [resolve, if_pos h]
  verifies h hp := by rw [resolve_insecure_iff.1 hp] at h; cases h
  roots h ca hca := by
    cases hp : resolve files t with
    | error e =>
      obtain ⟨path, reason, rfl⟩ := resolve_fails files t e hp
      exact .inl ⟨path, reason, rfl⟩
    | ok p =>
      obtain ⟨roots, identity, hroots, -, rfl⟩ := (resolve_eq_ok_iff h).1 hp
      obtain ⟨hpath, hne⟩ := roots_of_resolveRoots hroots
      obtain ⟨r, rfl, hr⟩ := Option.map_eq_some_iff.1 (hpath.trans hca)
      exact .inr ⟨r, identity, rfl, hr, hne r rfl⟩
  identity h cert key hcert hkey := by
    cases hp : resolve files t with
    | error e =>
      obtain ⟨path, reason, rfl⟩ := resolve_fails files t e hp
      exact .inl ⟨path, reason, rfl⟩
    | ok p =>
      obtain ⟨roots, identity, -, hidentity, rfl⟩ := (resolve_eq_ok_iff h).1 hp
      rcases identity_of_resolveIdentity hidentity with ⟨i, cert', key', rfl, hcert', -, hi⟩ | ⟨-, hnone⟩
      · refine .inr ⟨roots, i, ?_, hi.trans (Option.some.inj (hcert'.symm.trans hcert))⟩
        cases roots <;> rfl
      · rw [hcert, hkey] at hnone
        rcases hnone with hnone | hnone <;> cases hnone
  halved h halved := by
    have hnone : resolveIdentity files t = .ok none := resolveIdentity_of_isHalved halved
    refine ⟨fun p hp => ?_, resolve_eq_of_parts h h rfl ?_, fun files' hfiles => ?_⟩
    · obtain ⟨roots, identity, -, hidentity, rfl⟩ := (resolve_eq_ok_iff h).1 hp
      cases hnone.symm.trans hidentity
      cases roots <;> rfl
    · exact hnone
    · refine resolve_eq_of_parts h h (resolveRoots_congr hfiles) ?_
      rw [hnone, resolveIdentity_of_isHalved halved]
  default_iff h := resolve_eq_default_iff h
  error_iff h _ := resolve_eq_error_iff h

/-- Certificate and key are both missing, and it is the certificate that is told. -/
example : resolve [] ⟨none, some "key", some "cert", false⟩ =
    .error (.tlsConfig "cert" "No such file or directory (os error 2)") := by rfl

end TlsPolicy

end TokenKeeper
