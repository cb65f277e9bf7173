import Mathlib.Data.List.Infix
import TokenKeeper.Config.Load
import TokenKeeper.Proofs.Placeholders
import TokenKeeper.Proofs.Slot.Sections
import TokenKeeper.Proofs.Validity

/-!
# From a variable to a text of credentials

Placeholders are replaced in the text of a file before it is read, so a value may be read as more or as
less than a text. One that stands for itself as a plain scalar (`IsPlain`) is read as it is where the
file has a placeholder for the whole of a text of credentials (`Holds`), and nothing else in the
configuration depends on it (`ServiceConfig.load_of_holds`).
-/

namespace TokenKeeper
open Yaml

/-- A value that is read as itself where a plain scalar may begin: it is of one line, begins and ends
within a word, does not begin with an indicator, no colon in it has a blank or the end behind it, and no
number sign a blank before it. -/
structure IsPlain (value : List Char) : Prop where
  goes : Goes value
  begins : ∀ x ∈ value.head?, Scanner.isIndicator x = false ∨
    (x = '-' ∨ x = '?' ∨ x = ':') ∧ ∃ y ∈ value.tail.head?, isSolid y = true

def isPlain (value : List Char) : Bool :=
  (value.head?.any fun x => isSolid x && x != '#') &&
    (value.getLast?.all fun x => isSolid x && x != ':') &&
    (value.all fun x => !isBreak x) && decide (value.IsChain Joins) &&
    value.head?.all fun x => !Scanner.isIndicator x ||
      (x == '-' || x == '?' || x == ':') && value.tail.head?.any isSolid

theorem isPlain_iff {value : List Char} : isPlain value = true ↔ IsPlain value := by
  simp only [isPlain, Bool.and_eq_true, Bool.or_eq_true, Option.any_eq_true, Option.all_eq_true,
    List.all_eq_true, decide_eq_true_eq, Bool.not_eq_true', bne_iff_ne, beq_iff_eq]
  constructor
  · rintro ⟨⟨⟨⟨hfirst, hlast⟩, hline⟩, hjoins⟩, hbegins⟩
    exact ⟨⟨hfirst, hlast, hline, hjoins⟩,
      fun x hx => (hbegins x hx).imp_right fun h => ⟨or_assoc.1 h.1, h.2⟩⟩
  · rintro ⟨⟨hfirst, hlast, hline, hjoins⟩, hbegins⟩
    exact ⟨⟨⟨⟨hfirst, hlast⟩, hline⟩, hjoins⟩,
      fun x hx => (hbegins x hx).imp_right fun h => ⟨or_assoc.2 h.1, h.2⟩⟩

instance : DecidablePred IsPlain := fun _ => decidable_of_iff _ isPlain_iff

/-- The word stands once between the two texts, as the whole of what is behind a key on its line. With
it they are one document, in which it is a plain value of the field in the section of the identity
service, and is not shared with any other place. -/
structure Holds (f : TextField) (before word after : List Char) : Prop where
  blank : ∃ x ∈ before.getLast?, isBlank x = true
  line : ∃ blanks tail, after = blanks ++ tail ∧ (∀ x ∈ blanks, isBlank x = true) ∧
    ∀ x ∈ tail.head?, isBreak x = true ∨ (x = '#' ∧ blanks ≠ [])
  once : ∀ cs, cs <:+ before ++ (word ++ after) → word <+: cs → cs = word ++ after
  whole : (Document.ofText (before ++ (word ++ after))).IsWhole
  fills : Fills word (tokens (before ++ (word ++ after))).1
  only : (Document.ofText (before ++ (word ++ after))).onlyAs word f.name.toList = true
  value : ∃ identity ∈ (Document.ofText (before ++ (word ++ after))).values "keystone"
      (Document.ofText (before ++ (word ++ after))).root,
    .scalar none word .plain ∈ (Document.ofText (before ++ (word ++ after))).values f.name identity

variable {f : TextField} {before after name value value' : List Char} {s s' : Slot}

/-! ## The value in its place -/

theorem IsPlain.exists_slot (h : IsPlain value) (name rest : List Char) :
    ∃ s : Slot, s.name = name ∧ s.value = value ∧ s.rest = rest := by
  obtain ⟨x, hx, hsolid, hne⟩ := h.goes.first
  obtain ⟨others, rfl⟩ : ∃ others, value = x :: others := ⟨value.tail, List.eq_cons_of_mem_head? hx⟩
  obtain ⟨hblank, hbreak⟩ := Bool.or_eq_false_iff.1 (isSolid_eq_true.1 hsolid)
  exact ⟨⟨name, x, others, rest, hblank, hbreak, hne⟩, rfl, rfl, rfl⟩

theorem isSolid_of_isWord {x : Char} (h : Text.isWord x = true) : isSolid x = true := by
  have hne (y : Char) (hy : Text.isWord y = false) : x ≠ y := by
    rintro rfl
    exact Bool.false_ne_true (hy.symm.trans h)
  simp [isSolid, isBlank, isBreak, hne ' ' (by decide +kernel), hne '\t' (by decide +kernel),
    hne '\n' (by decide +kernel), hne '\r' (by decide +kernel), hne '\u0085' (by decide +kernel),
    hne '\u2028' (by decide +kernel), hne '\u2029' (by decide +kernel)]

theorem Holds.fits (h : Holds f before s.word s.rest) (hname : ∀ x ∈ s.name, Text.isWord x = true)
    (hplain : IsPlain s.value) : s.Fits where
  name x hx := isSolid_of_isWord (hname x hx)
  value := hplain.goes
  begins := hplain.begins s.first rfl
  line := h.line

/-- A text that is read is one whole document, and its root has been read. -/
theorem exists_of_read {α : Type} {root : Place → Node → Read α} {text : List Char} {a : α}
    (h : Yaml.read root (String.ofList text) = .ok a) :
    (Document.ofText text).IsWhole ∧
      ∃ m, (root ⟨Document.ofText text, [], maxDepth⟩ (Document.ofText text).root).run 0 = .ok (a, m) := by
  unfold Yaml.read at h
  rw [String.toList_ofList] at h
  obtain ⟨⟨b, m⟩, hrun, h⟩ := bind_eq_ok_iff.1 h
  dsimp only at h
  split at h
  · cases h
  next hfault =>
    split at h
    · cases h
    next hmore =>
      cases h
      exact ⟨⟨hfault, Bool.not_eq_true _ ▸ hmore⟩, m, hrun⟩

namespace ServiceConfig
variable {c c' : ServiceConfig}

/-- A text with the value in the place of the word is read as the document with the value there. -/
theorem exists_of_ofYaml (hholds : Holds f before s.word s.rest) (hfits : s.Fits)
    (h : ofYaml (String.ofList (before ++ (s.value ++ s.rest))) = .ok c) :
    ∃ m, (read ⟨s.putDocument (Document.ofText (before ++ (s.word ++ s.rest))), [], maxDepth⟩
      (s.putNode (Document.ofText (before ++ (s.word ++ s.rest))).root)).run 0 = .ok (c, m) := by
  obtain ⟨hwhole, m, hrun⟩ := exists_of_read h
  rw [Slot.ofText_put hfits hholds.blank hholds.once hholds.fills hholds.whole hwhole] at hrun
  exact ⟨m, hrun⟩

theorem get_of_ofYaml (hholds : Holds f before s.word s.rest) (hfits : s.Fits)
    (hshows : f.Shows s.value) (h : ofYaml (String.ofList (before ++ (s.value ++ s.rest))) = .ok c) :
    f.get c.identity = some (String.ofList s.value) := by
  obtain ⟨m, hrun⟩ := exists_of_ofYaml hholds hfits h
  obtain ⟨identity, hidentity, hvalue⟩ := hholds.value
  have hkeystone : "keystone".toList ≠ s.word := fun h => absurd (List.cons.inj h).1 (by decide)
  have hput := Slot.mem_values_put (f.name_ne_word s) hvalue
  rw [s.putNode_word] at hput
  exact read_yields_text (p := ⟨s.putDocument _, [], maxDepth⟩) hshows
    (Slot.mem_values_put hkeystone hidentity) hput _ _ _ hrun

theorem sameBut_of_ofYaml (hholds : Holds f before s.word s.rest) (hfits : s.Fits) (hfits' : s'.Fits)
    (hname : s'.name = s.name) (hrest : s'.rest = s.rest)
    (h : ofYaml (String.ofList (before ++ (s.value ++ s.rest))) = .ok c)
    (h' : ofYaml (String.ofList (before ++ (s'.value ++ s'.rest))) = .ok c') : SameBut f c c' := by
  have hword : s'.word = s.word := by rw [Slot.word, hname, Slot.word]
  have hholds' : Holds f before s'.word s'.rest := by rwa [hword, hrest]
  obtain ⟨m, hrun⟩ := exists_of_ofYaml hholds hfits h
  obtain ⟨m', hrun'⟩ := exists_of_ofYaml hholds' hfits' h'
  rw [hword, hrest] at hrun'
  have honly := hholds.only
  generalize Document.ofText (before ++ (s.word ++ s.rest)) = d at honly hrun hrun'
  have hbeside : Beside s s' d ⟨s.putDocument d, [], maxDepth⟩ ⟨s'.putDocument d, [], maxDepth⟩ :=
    ⟨rfl, rfl, rfl⟩
  obtain ⟨hroot, -⟩ := Bool.and_eq_true_iff.1 honly
  exact (read_agrees ⟨hword, honly⟩ hbeside hroot _ _ _ _ _ hrun hrun').2

theorem SameBut.withLogging (h : SameBut f c c') : SameBut f c.withLogging c'.withLogging where
  settings := by simp only [ServiceConfig.withLogging, ServiceConfig.logSettings, h.settings]
  identity := h.identity
  tls := h.tls

/-- What is read from the text of a file, once the placeholder has given way to its value. -/
theorem ofYaml_of_load {files : Files} {env : Environment} {path before after v : String}
    {p : Placeholder} (hp : p.IsWritten)
    (happart : Placeholder.Apart before.toList (p.spelling ++ after.toList))
    (hfile : files.readText path = .ok (before ++ String.ofList p.spelling ++ after))
    (hv : env.get? (String.ofList p.name) = some v) (h : load files env path = .ok c) :
    ∃ d, c = d.withLogging ∧ ofYaml (String.ofList ((expand env before).toList ++
      (v.toList ++ (expand env after).toList))) = .ok d := by
  have hvalue : p.value env = v.toList := by
    unfold Placeholder.value
    rw [hv]
  unfold load at h
  rw [hfile] at h
  obtain ⟨d, hd, hc, -⟩ := parse_eq_ok_iff.1 h
  refine ⟨d, hc, ?_⟩
  rw [← hvalue, ← Placeholder.expand_spelling hp happart, String.ofList_toList]
  exact hd

/-- In a file that has a placeholder for the whole of a text of credentials, a plain value of the
variable is what the field comes to, and nothing else in the configuration depends on it. The two
environments may differ in whatever does not count in the rest of the file. -/
theorem load_of_holds {files : Files} {env env' : Environment} {path before after v v' : String}
    {p : Placeholder} (hp : p.IsWritten)
    (happart : Placeholder.Apart before.toList (p.spelling ++ after.toList))
    (hfile : files.readText path = .ok (before ++ String.ofList p.spelling ++ after))
    (hbefore : expand env' before = expand env before) (hafter : expand env' after = expand env after)
    (hholds : Holds f (expand env before).toList (Placeholder.spelling ⟨p.name, none, 0⟩)
      (expand env after).toList)
    (hv : env.get? (String.ofList p.name) = some v) (hv' : env'.get? (String.ofList p.name) = some v')
    (hplain : IsPlain v.toList ∧ f.Shows v.toList) (hplain' : IsPlain v'.toList ∧ f.Shows v'.toList)
    (h : load files env path = .ok c) (h' : load files env' path = .ok c') :
    f.get c.identity = some v ∧ f.get c'.identity = some v' ∧ SameBut f c c' := by
  obtain ⟨d, rfl, hd⟩ := ofYaml_of_load hp happart hfile hv h
  obtain ⟨d', rfl, hd'⟩ := ofYaml_of_load hp happart hfile hv' h'
  rw [hbefore, hafter] at hd'
  obtain ⟨s, hname, hvalue, hrest⟩ := hplain.1.exists_slot p.name (expand env after).toList
  obtain ⟨s', hname', hvalue', hrest'⟩ := hplain'.1.exists_slot p.name (expand env after).toList
  have hspelling (s : Slot) (hname : s.name = p.name) :
      Placeholder.spelling ⟨p.name, none, 0⟩ = s.word := by
    rw [Slot.word, hname]
    simp [Placeholder.spelling]
  have hword (s : Slot) (hname : s.name = p.name) : ∀ x ∈ s.name, Text.isWord x = true :=
    hname ▸ hp.isWord
  have hthere : Holds f (expand env before).toList s.word s.rest := by
    rwa [← hspelling s hname, hrest]
  have hthere' : Holds f (expand env before).toList s'.word s'.rest := by
    rwa [← hspelling s' hname', hrest']
  have hfits := hthere.fits (hword s hname) (hvalue ▸ hplain.1)
  have hfits' := hthere'.fits (hword s' hname') (hvalue' ▸ hplain'.1)
  rw [← hvalue, ← hrest] at hd
  rw [← hvalue', ← hrest'] at hd'
  have hget := get_of_ofYaml hthere hfits (hvalue ▸ hplain.2) hd
  have hget' := get_of_ofYaml hthere' hfits' (hvalue' ▸ hplain'.2) hd'
  rw [hvalue, String.ofList_toList] at hget
  rw [hvalue', String.ofList_toList] at hget'
  refine ⟨hget, hget', ?_⟩
  exact (sameBut_of_ofYaml hthere hfits hfits' (hname'.trans hname.symm) (hrest'.trans hrest.symm)
    hd hd').withLogging

/-! ## A password from the environment -/

/-- A file has this, a placeholder with a default, and `vaultAfter`. -/
def vaultBefore : String :=
  "keystone:\n  auth_url: http://keys\n  username: me\n  password: "

def vaultAfter : String := " # secret\n"

def vaultPlaceholder : Placeholder := ⟨['P'], some ['n', 'o'], 0⟩

def vaultWord : List Char := Placeholder.spelling ⟨vaultPlaceholder.name, none, 0⟩

def vaultFiles : Files :=
  [("keystone.yaml",
    Text.Utf8.encode (vaultBefore ++ String.ofList vaultPlaceholder.spelling ++ vaultAfter))]

def vaultEnvironment (value : String) : Environment := [("P", Text.Utf8.encode value)]

def vaultConfig (password : String) : ServiceConfig where
  settings := ⟨some .default, none, true⟩
  identity := ⟨"http://keys", .v2, "", "", "me", password, none, "", ""⟩
  tls := none

theorem vault_holds : Holds .password vaultBefore.toList vaultWord vaultAfter.toList where
  blank := ⟨' ', by rfl, rfl⟩
  line := by
    refine ⟨[' '], "# secret\n".toList, by rfl, ?_, ?_⟩
    · intro x hx
      rw [List.mem_singleton.1 hx]
      rfl
    · intro x hx
      exact .inr ⟨(Option.some.inj hx).symm, List.cons_ne_nil _ _⟩
  once := by
    simp only [← List.mem_tails]
    decide +kernel
  whole := ⟨Option.isNone_iff_eq_none.1 (by decide +kernel), by decide +kernel⟩
  fills := by
    let ts := (tokens (vaultBefore.toList ++ (vaultWord ++ vaultAfter.toList))).1
    exact ⟨ts.take 15, ts.drop 17, by decide +kernel, by decide +kernel⟩
  only := by decide +kernel
  value := by
    let d := Document.ofText (vaultBefore.toList ++ (vaultWord ++ vaultAfter.toList))
    have hvalue : ((d.values "keystone" d.root).any fun identity =>
        (d.values TextField.password.name identity).any
          (isValueOf vaultWord [] (.scalar none [] .plain))) = true := by
      decide +kernel
    obtain ⟨identity, hidentity, hvalue⟩ := List.any_eq_true.1 hvalue
    obtain ⟨v, hv, hvalue⟩ := List.any_eq_true.1 hvalue
    obtain ⟨-, rfl⟩ := eq_of_isValueOf hvalue
    exact ⟨identity, hidentity, hv⟩

theorem vault_isWritten : vaultPlaceholder.IsWritten where
  name_ne_nil := List.cons_ne_nil _ _
  isWord := List.all_eq_true.1 (by decide +kernel)
  fallback := by
    rintro _ ⟨⟩
    decide

/-- Signs, colons and blanks within a password do no harm, and neither does a dash before it. -/
theorem load_plainPassword :
    load vaultFiles (vaultEnvironment "s3#cret:x y") "keystone.yaml" = .ok (vaultConfig "s3#cret:x y") ∧
    load vaultFiles (vaultEnvironment "-z") "keystone.yaml" = .ok (vaultConfig "-z") ∧
    TextField.password.get (vaultConfig "s3#cret:x y").identity = some "s3#cret:x y" ∧
    TextField.password.get (vaultConfig "-z").identity = some "-z" ∧
    SameBut .password (vaultConfig "s3#cret:x y") (vaultConfig "-z") := by
  have hload : load vaultFiles (vaultEnvironment "s3#cret:x y") "keystone.yaml" =
      .ok (vaultConfig "s3#cret:x y") := ok_of_toOption (by decide +kernel)
  have hload' : load vaultFiles (vaultEnvironment "-z") "keystone.yaml" = .ok (vaultConfig "-z") :=
    ok_of_toOption (by decide +kernel)
  have hbefore : expand (vaultEnvironment "s3#cret:x y") vaultBefore = vaultBefore := by decide +kernel
  have hafter : expand (vaultEnvironment "s3#cret:x y") vaultAfter = vaultAfter := by decide +kernel
  have hplain : IsPlain "s3#cret:x y".toList := by decide
  have hplain' : IsPlain "-z".toList := by decide
  have happart : Placeholder.Apart vaultBefore.toList
      (vaultPlaceholder.spelling ++ vaultAfter.toList) :=
    (Placeholder.closed_of_rtakeWhile (by decide)).apart _
  refine ⟨hload, hload', load_of_holds vault_isWritten happart ?_ ?_ ?_ ?_ ?_ ?_
    ⟨hplain, nofun⟩ ⟨hplain', nofun⟩ hload hload'⟩
  · exact ok_of_toOption (by decide +kernel)
  · decide +kernel
  · decide +kernel
  · rw [hbefore, hafter]
    exact vault_holds
  · decide +kernel
  · decide +kernel

/-- A file with one variable for two texts. -/
def sharedFiles : Files :=
  [("keystone.yaml", Text.Utf8.encode
    "keystone:\n  auth_url: http://keys\n  username: $\x7bP\x7d\n  password: $\x7bP\x7d\n")]

/-- A number sign behind a blank cuts a password short, and a variable that stands for two texts changes
both of them. -/
theorem load_cutPassword :
    ((vaultEnvironment "a #b").get? "P" = some "a #b" ∧
      load vaultFiles (vaultEnvironment "a #b") "keystone.yaml" = .ok (vaultConfig "a") ∧
      TextField.password.get (vaultConfig "a").identity ≠ some "a #b") ∧
    (load sharedFiles (vaultEnvironment "a") "keystone.yaml").toOption.map (·.identity.username) =
      some "a" ∧
    (load sharedFiles (vaultEnvironment "b") "keystone.yaml").toOption.map (·.identity.username) =
      some "b" := by
  refine ⟨⟨by decide +kernel, ok_of_toOption (by decide +kernel), by decide⟩, ?_, ?_⟩
  · decide +kernel
  · decide +kernel

end ServiceConfig

end TokenKeeper
