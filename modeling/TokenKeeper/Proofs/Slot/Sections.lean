import TokenKeeper.Config.Decode
import TokenKeeper.Proofs.Slot.Reading

/-!
# The sections of two documents that differ in one value

The text of a credential is read as it is (`TextField.field_yields`), and it is the only thing that is
read from behind its key: no other section has a field of that name (`ServiceConfig.read_agrees`).
-/

namespace TokenKeeper
open Yaml

/-! ## The texts of credentials -/

/-- The fields of credentials that hold a text. -/
inductive TextField where
  | authUrl
  | tenantName
  | projectName
  | username
  | password
  | adminToken
  | domainName
  | projectDomainName
deriving DecidableEq

namespace TextField

/-- How a configuration names the field. -/
def name : TextField → String
  | authUrl => "auth_url"
  | tenantName => "tenant_name"
  | projectName => "project_name"
  | username => "username"
  | password => "password"
  | adminToken => "admin_token"
  | domainName => "domain_name"
  | projectDomainName => "project_domain_name"

def get : TextField → Credentials → Option String
  | authUrl, c => some c.authUrl
  | tenantName, c => some c.tenantName
  | projectName, c => some c.projectName
  | username, c => some c.username
  | password, c => some c.password
  | adminToken, c => c.adminToken
  | domainName, c => some c.domainName
  | projectDomainName, c => some c.projectDomainName

def put : TextField → String → Credentials → Credentials
  | authUrl, v, c => { c with authUrl := v }
  | tenantName, v, c => { c with tenantName := v }
  | projectName, v, c => { c with projectName := v }
  | username, v, c => { c with username := v }
  | password, v, c => { c with password := v }
  | adminToken, v, c => { c with adminToken := some v }
  | domainName, v, c => { c with domainName := v }
  | projectDomainName, v, c => { c with projectDomainName := v }

variable {f g : TextField} {u v : String} {c c' : Credentials}

@[simp]
theorem get_put : f.get (f.put v c) = some v := by cases f <;> rfl

@[simp]
theorem put_put : f.put v (f.put u c) = f.put v c := by cases f <;> rfl

theorem get_put_of_ne (h : g ≠ f) : f.get (g.put v c) = f.get c := by
  cases f <;> cases g <;> first | rfl | exact absurd rfl h

theorem put_comm (h : g ≠ f) : f.put u (g.put v c) = g.put v (f.put u c) := by
  cases f <;> cases g <;> first | rfl | exact absurd rfl h

/-- Credentials that differ at most in the field. -/
def SameBut (f : TextField) (c c' : Credentials) : Prop := f.put "" c = f.put "" c'

theorem SameBut.put (h : f.SameBut c c') (g : TextField) (v : String) :
    f.SameBut (g.put v c) (g.put v c') := by
  by_cases hg : g = f
  · rw [hg, SameBut, put_put, put_put]
    exact h
  · rw [SameBut, put_comm hg, put_comm hg, h]

theorem SameBut.adminToken (h : f.SameBut c c') (token : Option String) :
    f.SameBut { c with adminToken := token } { c' with adminToken := token } := by
  cases f with
  | adminToken => exact h
  | _ => exact congrArg (fun c : Credentials => { c with adminToken := token }) h

theorem SameBut.protocol (h : f.SameBut c c') (protocol : Protocol) :
    f.SameBut { c with protocol := protocol } { c' with protocol := protocol } := by
  cases f <;> exact congrArg (fun c : Credentials => { c with protocol := protocol }) h

theorem name_ne_word (f : TextField) (s : Slot) : f.name.toList ≠ s.word := by
  cases f <;> exact fun h => absurd (List.cons.inj h).1 (by decide)

end TextField

variable {s s' : Slot} {d : Document} {p p' : Place} {n : Node} {f : TextField} {c : Credentials}
  {v : String}

namespace TextField

/-- How a field is read that always holds a text. -/
def textField (f : TextField) : RecordField Credentials :=
  .of f.name (f == authUrl) Place.readText fun c v => f.put v c

def field (f : TextField) : RecordField Credentials :=
  match f with
  | adminToken =>
    .of "admin_token" false (fun p => p.readOption p.readText) fun c v => { c with adminToken := v }
  | f => f.textField

theorem field_name (f : TextField) : f.field.name = f.name := by cases f <;> rfl

theorem find_field (f : TextField) :
    Credentials.fields.find? (fun g => g.name == f.field.name) = some f.field := by
  cases f <;> rfl

/-- A field of credentials holds a text or names the protocol. -/
theorem field_of_mem {r : RecordField Credentials} (h : r ∈ Credentials.fields) :
    (∃ g : TextField, r = g.field) ∨
      r = .of "protocol" false (·.readChoice Protocol.choices) fun c v => { c with protocol := v } := by
  simp only [Credentials.fields, List.mem_cons, List.not_mem_nil, or_false] at h
  obtain rfl | rfl | rfl | rfl | rfl | rfl | rfl | rfl | rfl := h
  · exact .inl ⟨.authUrl, rfl⟩
  · exact .inr rfl
  · exact .inl ⟨.tenantName, rfl⟩
  · exact .inl ⟨.projectName, rfl⟩
  · exact .inl ⟨.username, rfl⟩
  · exact .inl ⟨.password, rfl⟩
  · exact .inl ⟨.adminToken, rfl⟩
  · exact .inl ⟨.domainName, rfl⟩
  · exact .inl ⟨.projectDomainName, rfl⟩

theorem field_keeps {g : TextField} (h : g ≠ f) : g.field.Keeps fun c => f.get c = some v := by
  have htext (g : TextField) (h : g ≠ f) :
      RecordField.Keeps (fun c => f.get c = some v) g.textField :=
    RecordField.of_keeps_any fun c u hc => (get_put_of_ne h).trans hc
  cases g with
  | adminToken =>
    refine RecordField.of_keeps_any fun c u hc => ?_
    cases f <;> first | exact hc | exact absurd rfl h
  | _ => exact htext _ h

theorem protocol_keeps : RecordField.Keeps (fun c => f.get c = some v)
    (.of "protocol" false (·.readChoice Protocol.choices) fun c v => { c with protocol := v }) :=
  RecordField.of_keeps_any fun c u hc => by cases f <;> exact hc

/-- A plain text that the field does not take for nothing. -/
def Shows (f : TextField) (text : List Char) : Prop :=
  f = adminToken → text ≠ [] ∧ isNull text = false

theorem readText_yields (p : Place) (text : List Char) :
    Yields (· = String.ofList text) (p.readText (.scalar none text .plain)) :=
  Yields.map (P := (· = text)) (.ret rfl) fun _ h => by rw [h]

/-- The field takes a plain text as it is. -/
theorem field_yields {text : List Char} (hshows : f.Shows text) (p : Place) (c : Credentials) :
    Yields (fun c => f.get c = some (String.ofList text))
      (f.field.read p (.scalar none text .plain) c) := by
  have htext (g : TextField) :
      Yields (fun c => g.get c = some (String.ofList text))
        (g.textField.read p (.scalar none text .plain) c) :=
    (readText_yields p text).map fun _ h => by rw [h, get_put]
  cases f with
  | adminToken =>
    obtain ⟨hne, hnull⟩ := hshows rfl
    have hempty : text.isEmpty = false := List.isEmpty_eq_false_iff.2 hne
    have hread : Yields (· = some (String.ofList text))
        (p.readOption p.readText (.scalar none text .plain)) := by
      refine .bind (P := (· = .scalar none text .plain)) (.ret rfl) ?_
      rintro _ rfl
      dsimp only
      rw [if_neg (by rw [hempty, hnull]; exact Bool.false_ne_true)]
      exact (readText_yields p text).map fun _ h => by rw [h]
    exact hread.map fun _ h => by rw [h]; rfl
  | _ => exact htext _

theorem name_injective {f g : TextField} (h : f.name.toList = g.name.toList) : f = g := by
  cases f <;> cases g <;> first | rfl | exact absurd h (by decide)

/-- What is read from a word in the place of a field is put into the field, and no alias is
followed. -/
theorem field_word_agrees (f : TextField) (p p' : Place) (text text' : List Char) {c c' : Credentials}
    (hc : f.SameBut c c') :
    Agrees f.SameBut (f.field.read p (.scalar none text .plain) c)
      (f.field.read p' (.scalar none text' .plain) c') := by
  have htext (g : TextField) (hg : g.SameBut c c') :
      Agrees g.SameBut (g.textField.read p (.scalar none text .plain) c)
        (g.textField.read p' (.scalar none text' .plain) c') :=
    .ret (by rw [SameBut, put_put, put_put]; exact hg)
  cases f with
  | adminToken =>
    have hread (q : Place) (text : List Char) :
        ∃ token, q.readOption q.readText (.scalar none text .plain) = pure token := by
      unfold Place.readOption
      simp only [Place.follow, pure_bind]
      split
      · exact ⟨none, rfl⟩
      · exact ⟨_, rfl⟩
    obtain ⟨token, htoken⟩ := hread p text
    obtain ⟨token', htoken'⟩ := hread p' text'
    show Agrees _ (_ <$> p.readOption p.readText _) (_ <$> p'.readOption p'.readText _)
    rw [htoken, htoken']
    exact .ret hc
  | _ => exact htext _ hc

/-- Every field is read alike from both documents, but for the one whose value may be the word. -/
theorem field_agrees (hd : Both s s' f.name.toList d) (hp : Beside s s' d p p') (g : TextField)
    (hn : Meets s.word f.name.toList g.name.toList n) {c c' : Credentials} (hc : f.SameBut c c') :
    Agrees f.SameBut (g.field.read p (s.putNode n) c) (g.field.read p' (s'.putNode n) c') := by
  rcases hn with hn | ⟨hname, rfl⟩
  · have htext (g : TextField) : Agrees f.SameBut (g.textField.read p (s.putNode n) c)
        (g.textField.read p' (s'.putNode n) c') :=
      (Place.readText_agrees hd hp hn).map fun v _ h => h ▸ hc.put g v
    cases g with
    | adminToken =>
      refine Agrees.map (Place.readOption_agrees hd hp (fun n hn => Place.readText_agrees hd hp hn) hn) ?_
      rintro token _ rfl
      exact hc.adminToken token
    | _ => exact htext _
  · obtain rfl := name_injective hname
    rw [s.putNode_word, ← hd.word, s'.putNode_word]
    exact g.field_word_agrees p p' s.value s'.value hc

end TextField

/-! ## The other sections -/

variable {α β σ : Type} {R : σ → σ → Prop} {Q : α → α → Prop}

/-- A field of another name is read alike if its values are. -/
theorem of_follows {name : String} {required : Bool} {read : Place → Node → Read α}
    {put : σ → α → σ} {field : List Char} (hname : name.toList ≠ field)
    (hread : ∀ p p', Beside s s' d p p' → ∀ n, n.onlyAs s.word field = true →
      Agrees Q (read p (s.putNode n)) (read p' (s'.putNode n)))
    (hput : ∀ a b u v, R a b → Q u v → R (put a u) (put b v)) :
    Place.Follows s s' field d R (RecordField.of name required read put).name.toList
      (RecordField.of name required read put).read := by
  intro p p' hp n hn a b hab
  have hn := hn.resolve_right fun h => hname h.1
  exact (hread p p' hp n hn).map fun u v huv => hput a b u v hab huv

theorem LogSettings.read_agrees (hd : Both s s' f.name.toList d) (hp : Beside s s' d p p')
    (hn : n.onlyAs s.word f.name.toList = true) :
    Agrees Eq (LogSettings.read p (s.putNode n)) (LogSettings.read p' (s'.putNode n)) := by
  refine Place.readRecord_agrees hd (fun r hr => ?_) Place.skipOther_agrees _ hp rfl hn
  simp only [LogSettings.fields, List.mem_cons, List.not_mem_nil, or_false] at hr
  obtain rfl | rfl := hr
  · exact of_follows (by cases f <;> decide) (fun p p' hp n hn => Place.readText_agrees hd hp hn)
      fun a b u v hab huv => by rw [hab, huv]
  · exact of_follows (by cases f <;> decide) (fun p p' hp n hn => Place.readChoice_agrees hd hp _ hn)
      fun a b u v hab huv => by rw [hab, huv]

theorem HttpSettings.read_agrees (hd : Both s s' f.name.toList d) (hp : Beside s s' d p p')
    (hn : n.onlyAs s.word f.name.toList = true) :
    Agrees Eq (HttpSettings.read p (s.putNode n)) (HttpSettings.read p' (s'.putNode n)) := by
  refine Place.readRecord_agrees hd (fun r hr => ?_) Place.skipOther_agrees _ hp rfl hn
  obtain rfl := List.mem_singleton.1 hr
  exact of_follows (by cases f <;> decide)
    (fun p p' hp n hn => Place.readOption_agrees hd hp (fun n hn => Place.readCount_agrees hd hp hn) hn)
    fun a b u v _ huv => by rw [huv]

theorem Settings.read_agrees (hd : Both s s' f.name.toList d) (hp : Beside s s' d p p')
    (hn : n.onlyAs s.word f.name.toList = true) :
    Agrees Eq (Settings.read p (s.putNode n)) (Settings.read p' (s'.putNode n)) := by
  refine Place.readRecord_agrees hd (fun r hr => ?_) Place.skipOther_agrees _ hp rfl hn
  simp only [Settings.fields, List.mem_cons, List.not_mem_nil, or_false] at hr
  obtain rfl | rfl | rfl := hr
  · exact of_follows (by cases f <;> decide)
      (fun p p' hp n hn =>
        Place.readOption_agrees hd hp (fun n hn => LogSettings.read_agrees hd hp hn) hn)
      fun a b u v hab huv => by rw [hab, huv]
  · exact of_follows (by cases f <;> decide)
      (fun p p' hp n hn =>
        Place.readOption_agrees hd hp (fun n hn => HttpSettings.read_agrees hd hp hn) hn)
      fun a b u v hab huv => by rw [hab, huv]
  · exact of_follows (by cases f <;> decide) (fun p p' hp n hn => Place.readFlag_agrees hd hp hn)
      fun a b u v hab huv => by rw [hab, huv]

theorem Credentials.read_agrees (hd : Both s s' f.name.toList d) (hp : Beside s s' d p p')
    (hn : n.onlyAs s.word f.name.toList = true) :
    Agrees f.SameBut (Credentials.read p (s.putNode n)) (Credentials.read p' (s'.putNode n)) := by
  refine Place.readRecord_agrees hd (fun r hr => ?_) Place.skipOther_agrees _ hp rfl hn
  rcases TextField.field_of_mem hr with ⟨g, rfl⟩ | rfl
  · intro p p' hp n hn c c' hc
    rw [TextField.field_name] at hn
    exact TextField.field_agrees hd hp g hn hc
  · exact of_follows (by cases f <;> decide) (fun p p' hp n hn => Place.readChoice_agrees hd hp _ hn)
      fun a b u v hab huv => by rw [huv]; exact hab.protocol v

namespace TlsSection

/-- Entries that were kept have the same names, and the same values but behind that name. -/
def KeptBut (field : List Char) (e e' : List Char × Found) : Prop :=
  e.1 = e'.1 ∧ (e.1 ≠ field → e.2 = e'.2)

/-- Drafts that differ in nothing but values behind keys of that name. -/
structure Draft.SameBut (field : List Char) (t t' : Draft) : Prop where
  forceInsecureV3 : t.forceInsecureV3 = t'.forceInsecureV3
  kept : List.Forall₂ (KeptBut field) t.kept t'.kept

theorem keep_agrees (hd : Both s s' f.name.toList d) (name : List Char) :
    Place.Follows s s' f.name.toList d (Draft.SameBut f.name.toList) name
      fun p n t => keep p name n t := by
  intro p p' hp n hn t t' ht
  have hfound : Agrees (fun u v => name ≠ f.name.toList → u = v)
      (Place.readAny p.document p.depth p.path (s.putNode n))
      (Place.readAny p'.document p'.depth p'.path (s'.putNode n)) := by
    rw [hp.left, hp.right, hp.depth]
    rcases hn with hn | ⟨hname, rfl⟩
    · exact (Place.readAny_agrees hd _ _ _ hn).mono fun _ _ h _ => h
    · rw [s.putNode_word, ← hd.word, s'.putNode_word]
      exact (Place.readAny_scalar_agrees _ _ _ _ _ _ _ _ _ _ _ _).mono fun _ _ _ h => absurd hname h
  refine hfound.bind fun u v huv => .ret ⟨ht.forceInsecureV3, ?_⟩
  exact List.rel_append ht.kept (.cons ⟨rfl, huv⟩ .nil)

theorem entry?_name (f : TextField) : entry? f.name = none := by cases f <;> rfl

theorem gather_agrees {kept kept' : List (List Char × Found)}
    (h : List.Forall₂ (KeptBut f.name.toList) kept kept') (seen : List String) (t : TlsFiles) :
    gather kept seen t = gather kept' seen t := by
  induction h generalizing seen t with
  | nil => rfl
  | @cons e e' rest rest' he hrest ih =>
    obtain ⟨name, found⟩ := e
    obtain ⟨_, found'⟩ := e'
    obtain ⟨rfl, hfound⟩ := he
    rw [gather, gather]
    by_cases hname : name = f.name.toList
    · have hnone : entry? (String.ofList name) = none := by
        rw [hname, String.ofList_toList]
        exact entry?_name f
      rw [hnone]
      exact ih seen t
    · obtain rfl := hfound hname
      simp only [ih]

theorem read_agrees (hd : Both s s' f.name.toList d) (hp : Beside s s' d p p')
    (hn : n.onlyAs s.word f.name.toList = true) :
    Agrees Eq (read p (s.putNode n)) (read p' (s'.putNode n)) := by
  have hdraft : Agrees (Draft.SameBut f.name.toList)
      (p.readRecord "TlsConfig" fields keep ⟨true, []⟩ (s.putNode n))
      (p'.readRecord "TlsConfig" fields keep ⟨true, []⟩ (s'.putNode n)) := by
    refine Place.readRecord_agrees hd (fun r hr => ?_) (keep_agrees hd) _ hp ⟨rfl, .nil⟩ hn
    obtain rfl := List.mem_singleton.1 hr
    exact of_follows (by cases f <;> decide) (fun p p' hp n hn => Place.readFlag_agrees hd hp hn)
      fun a b u v hab huv => ⟨huv, hab.kept⟩
  refine hdraft.bind fun t t' ht => ?_
  rw [gather_agrees ht.kept, ht.forceInsecureV3]
  split
  · exact .ret rfl
  · exact .fail (p.refuse_yields _)

end TlsSection

namespace ServiceConfig

structure SameBut (f : TextField) (c c' : ServiceConfig) : Prop where
  settings : c.settings = c'.settings
  identity : f.SameBut c.identity c'.identity
  tls : c.tls = c'.tls

theorem read_agrees (hd : Both s s' f.name.toList d) (hp : Beside s s' d p p')
    (hn : n.onlyAs s.word f.name.toList = true) :
    Agrees (SameBut f) (read p (s.putNode n)) (read p' (s'.putNode n)) := by
  refine Place.readRecord_agrees hd (fun r hr => ?_) Place.skipOther_agrees _ hp ⟨rfl, rfl, rfl⟩ hn
  simp only [fields, List.mem_cons, List.not_mem_nil, or_false] at hr
  obtain rfl | rfl | rfl := hr
  · exact of_follows (by cases f <;> decide) (fun p p' hp n hn => Settings.read_agrees hd hp hn)
      fun a b u v hab huv => ⟨huv, hab.identity, hab.tls⟩
  · exact of_follows (by cases f <;> decide) (fun p p' hp n hn => Credentials.read_agrees hd hp hn)
      fun a b u v hab huv => ⟨hab.settings, huv, hab.tls⟩
  · exact of_follows (by cases f <;> decide)
      (fun p p' hp n hn =>
        Place.readOption_agrees hd hp (fun n hn => TlsSection.read_agrees hd hp hn) hn)
      fun a b u v hab huv => ⟨hab.settings, hab.identity, huv⟩

/-- The configuration has the text that stands in the place of the field. -/
theorem read_yields_text {text : List Char} {identity : Node} (hshows : f.Shows text)
    (hidentity : identity ∈ p.document.values "keystone" n)
    (hvalue : .scalar none text .plain ∈ p.document.values f.name identity) :
    Yields (fun c => f.get c.identity = some (String.ofList text)) (read p n) := by
  refine p.readRecord_yields_of_entry (f := .of "keystone" true Credentials.read
    fun c v => { c with identity := v }) _ rfl (fun q c hq => ?_) (fun r hr hne => ?_)
    Place.skipOther_yields hidentity _
  · rw [← hq, ← TextField.field_name f] at hvalue
    have hread : Yields (fun c => f.get c = some (String.ofList text)) (Credentials.read q identity) := by
      refine q.readRecord_yields_of_entry _ f.find_field (fun q c _ => f.field_yields hshows q c)
        (fun r hr hne => ?_) Place.skipOther_yields hvalue _
      rcases TextField.field_of_mem hr with ⟨g, rfl⟩ | rfl
      · exact TextField.field_keeps fun h => hne (by rw [h])
      · exact TextField.protocol_keeps
    exact hread.map fun _ h => h
  · simp only [fields, List.mem_cons, List.not_mem_nil, or_false] at hr
    obtain rfl | rfl | rfl := hr
    · exact RecordField.of_keeps_any fun c v hc => hc
    · exact absurd rfl hne
    · exact RecordField.of_keeps_any fun c v hc => hc

end ServiceConfig

end TokenKeeper
