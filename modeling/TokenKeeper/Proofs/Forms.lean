import TokenKeeper.Proofs.Members

/-!
# The form of a record

What a value must be to make a record, told by the entries that the record may have (`IsRecord`). An
entry is there at most once and in one of its spellings, its value is what the entry takes, and some
entries must be there; whatever else there is need only be JSON. A schema that asks for the same
(`Schema.Asks`) accepts exactly the values of that form (`Schema.Asks.exists_check_iff`), and the fields
that it finds are those that the members give (`Schema.Asks.finds`).
-/

namespace TokenKeeper.Json

/-- The text is the value and nothing else. -/
def Holds (text : String) (d : Draft) : Prop := Reading.ofText text = ⟨d, false⟩

/-- One of the members gives the value to the field that goes by the keys. -/
def Gives (ms : Members) (keys : List String) (d : Draft) : Prop := ∃ key ∈ keys, (.ok key, d) ∈ ms

/-- The members that a value has: those of an object, or the items of an array, each under the name at
its place. -/
inductive Lists (names : List String) : Draft → Members → Prop
  | object (ms : Members) : Lists names (.object ms none) ms
  | array (vs : List Draft) (h : vs.length ≤ names.length) :
      Lists names (.array vs none) ((names.map .ok).zip vs)

/-- What may stand in a record under one name or another spelling of it. -/
structure Entry where
  name : String
  spellings : List String
  required : Bool
  value : Draft → Prop

def Entry.keys (e : Entry) : List String := e.name :: e.spellings

/-- The members make a record with the entries. -/
structure MakesRecord (es : List Entry) (ms : Members) : Prop where
  keys : ∀ m ∈ ms, ∃ key, m.1 = .ok key
  values : ∀ e ∈ es, ∀ d, Gives ms e.keys d → e.value d
  others : ∀ key d, (.ok key, d) ∈ ms → (∀ e ∈ es, key ∉ e.keys) → d.IsWhole
  once : ∀ e ∈ es, ∀ key ∈ e.keys, ∀ key' ∈ e.keys, ∀ d d',
    ¬ List.Sublist [(.ok key, d), (.ok key', d')] ms
  complete : ∀ e ∈ es, e.required = true → ∃ d, Gives ms e.keys d

/-- The value is a record with the entries. -/
def IsRecord (es : List Entry) (d : Draft) : Prop :=
  ∃ ms, Lists (es.map Entry.name) d ms ∧ MakesRecord es ms

namespace Entry

/-- A text or null. -/
def text (name : String) (spellings : List String) : Entry :=
  ⟨name, spellings, false, fun d => d = .null ∨ ∃ s, d = .string (.ok s)⟩

/-- A truth value or null. -/
def flag (name : String) (spellings : List String) : Entry :=
  ⟨name, spellings, false, fun d => d = .null ∨ ∃ b, d = .bool b⟩

def record (name : String) (spellings : List String) (es : List Entry) : Entry :=
  ⟨name, spellings, true, IsRecord es⟩

/-- A record or null. -/
def optionalRecord (name : String) (spellings : List String) (es : List Entry) : Entry :=
  ⟨name, spellings, false, fun d => d = .null ∨ IsRecord es d⟩

end Entry

variable {s s' : Schema} {es : List Entry} {f : Field} {d v : Draft} {ms ms' : Members}
  {found found' : Fields}

theorem Lists.unique {names : List String} (h : Lists names d ms) (h' : Lists names d ms') : ms = ms' := by
  cases h with
  | object => cases h' with | object => rfl
  | array => cases h' with | array => rfl

theorem Lists.ne_null {names : List String} (h : Lists names d ms) : d ≠ .null := by
  rintro rfl
  cases h

theorem Holds.unique {text : String} {d' : Draft} (h : Holds text d) (h' : Holds text d') : d = d' :=
  congrArg Reading.value (h.symm.trans h')

namespace Draft

mutual

theorem isWhole_of_skipFault : (d : Draft) → d.skipFault = none → d.IsWhole
  | .null, _ | .bool _, _ | .number _, _ | .string _, _ => trivial
  | .broken _, h => nomatch h
  | .array items stop, h => by
    rw [skipFault, Option.or_eq_none_iff, Option.map_eq_none_iff] at h
    exact ⟨h.2, itemsWhole_of_skip items h.1⟩
  | .object members stop, h => by
    rw [skipFault, Option.or_eq_none_iff, Option.map_eq_none_iff] at h
    exact ⟨h.2, membersWhole_of_skip members h.1⟩

theorem itemsWhole_of_skip : (vs : List Draft) → skipItems vs = none → ItemsWhole vs
  | [], _ => trivial
  | v :: vs, h => by
    rw [skipItems, Option.or_eq_none_iff] at h
    exact ⟨isWhole_of_skipFault v h.1, itemsWhole_of_skip vs h.2⟩

theorem membersWhole_of_skip : (ms : List (DraftText × Draft)) → skipMembers ms = none →
    MembersWhole ms
  | [], _ => trivial
  | (_, v) :: ms, h => by
    rw [skipMembers, Option.or_eq_none_iff] at h
    exact ⟨isWhole_of_skipFault v h.1, membersWhole_of_skip ms h.2⟩

end

theorem checkText_eq_ok_iff : d.checkText = .ok () ↔ d = .null ∨ ∃ text, d = .string (.ok text) := by
  unfold checkText
  split <;> simp_all

theorem checkFlag_eq_ok_iff : d.checkFlag = .ok () ↔ d = .null ∨ ∃ b, d = .bool b := by
  unfold checkFlag
  split <;> simp_all

end Draft

/-- What the field asks for, as an entry. -/
def Field.entry (f : Field) : Entry := ⟨f.name, f.spellings, !f.optional, fun d => f.check d = .ok ()⟩

namespace Schema

def names (s : Schema) : List String := s.fields.map Field.name

def entries (s : Schema) : List Entry := s.fields.map Field.entry

/-! ## Items under their names -/

/-- The items of an array are checked each against the field at its place. -/
theorem checkItems_eq_ok_iff (n : Nat) (fs : List Field) (vs : List Draft) (stop : Option Break) :
    s.checkItems n fs vs stop = .ok found ↔
      stop = none ∧ vs.length ≤ fs.length ∧ (∀ p ∈ fs.zip vs, p.1.check p.2 = .ok ()) ∧
        (∀ f ∈ fs.drop vs.length, f.optional = true) ∧ found = (fs.map Field.name).zip vs := by
  induction fs generalizing n vs found with
  | nil => rcases vs with _ | ⟨v, vs⟩ <;> rcases stop with _ | b <;>
      simp [checkItems]
  | cons f fs ih =>
    cases vs with
    | nil =>
      cases stop with
      | some b => simp [checkItems]
      | none =>
        cases hf : f.optional with
        | false => simp [checkItems, hf]
        | true => simp [checkItems, hf, ih]
    | cons v vs =>
      have hstep : s.checkItems n (f :: fs) (v :: vs) stop = (f.check v).bind fun _ =>
          (s.checkItems (n + 1) fs vs stop).bind fun rest => .ok ((f.name, v) :: rest) := rfl
      rw [hstep, check_bind_eq_ok_iff, bind_eq_ok_iff]
      simp only [ih, List.zip_cons_cons, List.forall_mem_cons, List.length_cons, List.drop_succ_cons,
        List.map_cons, Nat.add_le_add_iff_right]
      constructor
      · rintro ⟨hv, rest, ⟨hstop, hlen, hchecks, hopt, rfl⟩, hfound⟩
        exact ⟨hstop, hlen, ⟨hv, hchecks⟩, hopt, (Except.ok.inj hfound).symm⟩
      · rintro ⟨hstop, hlen, ⟨hv, hchecks⟩, hopt, rfl⟩
        exact ⟨hv, _, ⟨hstop, hlen, hchecks, hopt, rfl⟩, rfl⟩

variable {fs : List Field} {vs : List Draft}

/-- The items of an array as members. -/
theorem named_zip (fs : List Field) (vs : List Draft) :
    (((fs.map Field.name).map .ok).zip vs : Members) =
      (fs.zip vs).map fun p => (.ok p.1.name, p.2) := by
  rw [List.map_map, List.zip_map_left]
  rfl

theorem known_zip (hs : s.IsUnambiguous) (hfs : ∀ f ∈ fs, f ∈ s.fields) (vs : List Draft) :
    s.known (((fs.map Field.name).map .ok).zip vs) = (fs.map Field.name).zip vs := by
  induction fs generalizing vs with
  | nil => rfl
  | cons f fs ih =>
    cases vs with
    | nil => rfl
    | cons v vs =>
      obtain ⟨hf, hfs⟩ := List.forall_mem_cons.1 hfs
      simp only [List.map_cons, List.zip_cons_cons]
      rw [known_cons_some (field?_eq_some hs hf (.head _)), ih hfs]

theorem given_zip (hs : s.IsUnambiguous) (vs : List Draft) :
    s.given ((s.names.map .ok).zip vs) = (s.fields.take vs.length).map Field.name := by
  have htake : ∀ (names : List String) (vs : List Draft),
      (names.zip vs).map Prod.fst = names.take vs.length := by
    intro names
    induction names with
    | nil => simp
    | cons name names ih => rintro (_ | ⟨v, vs⟩) <;> simp [ih]
  rw [given, names, known_zip hs fun _ h => h, htake, List.map_take]

theorem names_nodup (hs : s.IsUnambiguous) : s.names.Nodup :=
  List.pairwise_map.2 (hs.imp fun {f g} h (heq : f.name = g.name) =>
    h f.name (.head _) (heq ▸ .head _))

/-- The items of an array make a record exactly if each fits and the fields left over may be missing. -/
theorem admits_zip_iff (hs : s.IsUnambiguous) (vs : List Draft) :
    s.Admits ((s.names.map .ok).zip vs) ↔
      (∀ p ∈ s.fields.zip vs, p.1.check p.2 = .ok ()) ∧
        ∀ f ∈ s.fields.drop vs.length, f.optional = true := by
  have hfits : ∀ p ∈ s.fields.zip vs, s.Fits (.ok p.1.name, p.2) ↔ p.1.check p.2 = .ok () :=
    fun p hp => fits_known_iff (field?_eq_some hs (List.of_mem_zip hp).1 (.head _))
  have hsplit := List.take_append_drop vs.length s.fields
  constructor
  · rintro ⟨hall, -, hcomplete⟩
    rw [names, named_zip, List.forall_mem_map] at hall
    refine ⟨fun p hp => (hfits p hp).1 (hall p hp), fun f hf => ?_⟩
    by_contra hopt
    have hmem := hcomplete f (List.mem_of_mem_drop hf) (Bool.eq_false_iff.2 hopt)
    rw [given_zip hs] at hmem
    -- the field would share its name with one that an item stands for
    obtain ⟨g, hg, hname⟩ := List.mem_map.1 hmem
    unfold IsUnambiguous at hs
    rw [← hsplit, List.pairwise_append] at hs
    exact hs.2.2 g hg f hf g.name (.head _) (hname ▸ .head _)
  · rintro ⟨hchecks, hopt⟩
    refine ⟨?_, ?_, fun f hf hmust => ?_⟩
    · rw [names, named_zip, List.forall_mem_map]
      exact fun p hp => (hfits p hp).2 (hchecks p hp)
    · rw [given_zip hs]
      exact (s.names_nodup hs).sublist ((List.take_sublist _ _).map _)
    · rw [given_zip hs]
      rw [← hsplit, List.mem_append] at hf
      refine List.mem_map_of_mem (hf.resolve_right fun hf => ?_)
      rw [hopt f hf] at hmust
      cases hmust

/-! ## What a schema accepts -/

/-- An object and an array are checked alike, by the members that they list. -/
theorem check_eq_ok_iff (hs : s.IsUnambiguous) :
    s.check d = .ok found ↔ ∃ ms, Lists s.names d ms ∧ s.Admits ms ∧ found = s.known ms := by
  have hother : ∀ m : Misfit, (.error m = (.ok found : Except Misfit Fields) ↔
      ∃ ms, False ∧ s.Admits ms ∧ found = s.known ms) :=
    fun m => ⟨fun h => (nomatch h), fun ⟨_, h, _⟩ => h.elim⟩
  cases d with
  | object ms stop =>
    rw [check_object_eq_ok_iff]
    constructor
    · rintro ⟨rfl, hadmits, hfound⟩
      exact ⟨ms, .object ms, hadmits, hfound⟩
    · rintro ⟨_, ⟨⟩, hadmits, hfound⟩
      exact ⟨rfl, hadmits, hfound⟩
  | array vs stop =>
    have hcheck : s.check (.array vs stop) = s.checkItems 0 s.fields vs stop := rfl
    have hknown := known_zip hs (fun _ h => h) vs
    rw [hcheck, checkItems_eq_ok_iff, ← hknown]
    constructor
    · rintro ⟨rfl, hlen, hchecks, hopt, hfound⟩
      exact ⟨_, .array vs (by simpa [names] using hlen), (admits_zip_iff hs vs).2 ⟨hchecks, hopt⟩,
        hfound⟩
    · rintro ⟨_, hms, hadmits, hfound⟩
      cases hms with | array _ hlen => _
      obtain ⟨hchecks, hopt⟩ := (admits_zip_iff hs vs).1 hadmits
      exact ⟨rfl, by simpa [names] using hlen, hchecks, hopt, hfound⟩
  | _ =>
    refine ⟨fun h => ?_, fun ⟨_, h, _⟩ => (nomatch h)⟩
    cases h

/-- An object with all the fields in their order, and nothing else. -/
theorem check_in_order (hs : s.IsUnambiguous) (vs : List Draft) (hlen : vs.length = s.fields.length)
    (h : ∀ p ∈ s.fields.zip vs, p.1.check p.2 = .ok ()) :
    s.check (.object ((s.names.map .ok).zip vs) none) = .ok (s.names.zip vs) :=
  check_object_eq_ok_iff.2 ⟨rfl, (admits_zip_iff hs vs).2 ⟨h, by simp [hlen]⟩,
    (known_zip hs (fun _ hf => hf) vs).symm⟩

theorem forall_mem_entries {P : Entry → Prop} : (∀ e ∈ s.entries, P e) ↔ ∀ f ∈ s.fields, P f.entry :=
  List.forall_mem_map

theorem exists_gives_iff (hs : s.IsUnambiguous) (hf : f ∈ s.fields) :
    (∃ d, Gives ms f.keys d) ↔ f.name ∈ s.given ms := by
  simp only [given, List.mem_map, Prod.exists, exists_and_right, exists_eq_right, mem_known_iff hs hf,
    Gives]

/-- Fields that are not given twice are given by no two members. -/
theorem given_nodup (hs : s.IsUnambiguous) (h : ∀ f ∈ s.fields, ∀ key ∈ f.keys, ∀ key' ∈ f.keys,
    ∀ d d', ¬ List.Sublist [(.ok key, d), (.ok key', d')] ms) : (s.given ms).Nodup := by
  have hknown : ∀ (m : DraftText × Draft) (p : String × Draft),
      (m.1.toOption.bind fun key => (s.field? key).map fun f => (f.name, m.2)) = some p →
        ∃ f ∈ s.fields, ∃ key ∈ f.keys, m.1 = .ok key ∧ p.1 = f.name := by
    intro m p hp
    obtain ⟨key, hkey, hfield⟩ := Option.bind_eq_some_iff.1 hp
    obtain ⟨f, hf, rfl⟩ := Option.map_eq_some_iff.1 hfield
    obtain ⟨hmem, hk⟩ := mem_of_field? hf
    exact ⟨f, hmem, key, hk, ok_of_toOption hkey, rfl⟩
  rw [List.Nodup, given, List.pairwise_map, known, List.pairwise_filterMap,
    List.pairwise_iff_forall_sublist]
  rintro ⟨k, d⟩ ⟨k', d'⟩ hsub p hp p' hp' heq
  obtain ⟨f, hf, key, hk, rfl, hname⟩ := hknown _ p hp
  obtain ⟨g, hg, key', hk', rfl, hname'⟩ := hknown _ p' hp'
  obtain rfl := hs.eq_of_name hg hf (hname.symm.trans (heq.trans hname'))
  exact h f hf key hk key' hk' d d' hsub

theorem admits_iff (hs : s.IsUnambiguous) : s.Admits ms ↔ MakesRecord s.entries ms := by
  constructor
  · intro h
    refine ⟨fun m hm => ?_, forall_mem_entries.2 fun f hf d hgives => ?_, fun key d hm hkey => ?_,
      forall_mem_entries.2 fun f hf key hk key' hk' d d' => h.not_twice hs hf hk hk',
      forall_mem_entries.2 fun f hf hmust => (exists_gives_iff hs hf).2 (h.complete f hf ?_)⟩
    · cases h.fits m hm with
      | known | other => exact ⟨_, rfl⟩
    · obtain ⟨key, hk, hm⟩ := hgives
      exact (fits_known_iff (field?_eq_some hs hf hk)).1 (h.fits _ hm)
    · have hnone : s.field? key = none := field?_eq_none_iff.2 (forall_mem_entries.1 hkey)
      exact d.isWhole_of_skipFault ((fits_other_iff hnone).1 (h.fits _ hm))
    · simpa [Field.entry] using hmust
  · rintro ⟨hkeys, hvalues, hothers, honce, hcomplete⟩
    rw [forall_mem_entries] at hvalues honce hcomplete
    refine ⟨fun m hm => ?_, given_nodup hs honce, fun f hf hmust =>
      (exists_gives_iff hs hf).1 (hcomplete f hf (by simp [Field.entry, hmust]))⟩
    obtain ⟨key, d⟩ := m
    obtain ⟨key, rfl⟩ := hkeys _ hm
    cases hfield : s.field? key with
    | none =>
      have hkey := field?_eq_none_iff.1 hfield
      exact .other hfield (d.skipFault_of_isWhole (hothers key d hm (forall_mem_entries.2 hkey)))
    | some f =>
      obtain ⟨hf, hk⟩ := mem_of_field? hfield
      exact .known hfield (hvalues f hf d ⟨key, hk, hm⟩)

/-- The fields have the values that the members give. -/
def Finds (s : Schema) (ms : Members) (found : Fields) : Prop :=
  ∀ f ∈ s.fields, ∀ v, found.lookup f.name = some v ↔ Gives ms f.keys v

/-- The schema asks for the entries, and no key belongs to two of them. -/
structure Asks (s : Schema) (es : List Entry) : Prop where
  unambiguous : s.IsUnambiguous
  entries : s.entries = es

namespace Asks

theorem names (h : s.Asks es) : es.map Entry.name = s.names := by
  rw [← h.entries, Schema.entries, List.map_map]
  rfl

theorem admits_iff (h : s.Asks es) : s.Admits ms ↔ MakesRecord es ms :=
  h.entries ▸ Schema.admits_iff h.unambiguous

/-- A schema accepts the records with its entries and nothing else. -/
theorem exists_check_iff (h : s.Asks es) : (∃ found, s.check d = .ok found) ↔ IsRecord es d := by
  simp only [check_eq_ok_iff h.unambiguous, IsRecord, h.names, h.admits_iff]
  exact ⟨fun ⟨_, ms, hms, hadmits, _⟩ => ⟨ms, hms, hadmits⟩,
    fun ⟨ms, hms, hadmits⟩ => ⟨_, ms, hms, hadmits, rfl⟩⟩

theorem finds (h : s.Asks es) (hcheck : s.check d = .ok found)
    (hms : Lists (es.map Entry.name) d ms) : MakesRecord es ms ∧ s.Finds ms found := by
  rw [h.names] at hms
  obtain ⟨ms', hms', hadmits, rfl⟩ := (check_eq_ok_iff h.unambiguous).1 hcheck
  obtain rfl := hms.unique hms'
  exact ⟨h.admits_iff.1 hadmits,
    fun f hf v => lookup_known_iff h.unambiguous hf hadmits⟩

end Asks

namespace Finds

theorem text?_iff (h : s.Finds ms found) (hf : f ∈ s.fields) {text : String} :
    found.text? f.name = some text ↔ Gives ms f.keys (.string (.ok text)) := by
  have htext (d : Draft) : d.text? = some text ↔ d = .string (.ok text) := by
    unfold Draft.text?
    split <;> simp_all
  simp only [Fields.text?, Option.bind_eq_some_iff, htext, exists_eq_right, h f hf]

theorem flag?_iff (h : s.Finds ms found) (hf : f ∈ s.fields) {b : Bool} :
    found.flag? f.name = some b ↔ Gives ms f.keys (.bool b) := by
  have hflag (d : Draft) : d.flag? = some b ↔ d = .bool b := by
    cases d <;> simp [Draft.flag?]
  simp only [Fields.flag?, Option.bind_eq_some_iff, hflag, exists_eq_right, h f hf]

theorem record?_eq (h : s.Finds ms found) (hf : f ∈ s.fields) (hv : Gives ms f.keys v)
    (hcheck : s'.check v = .ok found') : found.record? f.name s' = some found' := by
  rw [Fields.record?, (h f hf v).2 hv, Option.bind_some, hcheck]
  rfl

theorem record?_eq_none_iff (h : s.Finds ms found) (hf : f ∈ s.fields)
    (hvalues : ∀ v, Gives ms f.keys v → v = .null ∨ ∃ found', s'.check v = .ok found') :
    found.record? f.name s' = none ↔ ∀ v, Gives ms f.keys v → v = .null := by
  constructor
  · intro hnone v hv
    refine (hvalues v hv).resolve_right fun ⟨found', hcheck⟩ => ?_
    rw [h.record?_eq hf hv hcheck] at hnone
    cases hnone
  · intro hnull
    rw [Fields.record?]
    cases hlookup : found.lookup f.name with
    | none => rfl
    | some v =>
      obtain rfl := hnull v ((h f hf v).1 hlookup)
      rfl

end Finds

end Schema

namespace Field
variable {name : String} {spellings : List String}

theorem entry_text : (text name spellings).entry = .text name spellings :=
  congrArg (Entry.mk name spellings false) (funext fun _ => propext Draft.checkText_eq_ok_iff)

theorem entry_flag : (flag name spellings).entry = .flag name spellings :=
  congrArg (Entry.mk name spellings false) (funext fun _ => propext Draft.checkFlag_eq_ok_iff)

theorem check_record_iff :
    (record name spellings s).check d = .ok () ↔ ∃ found, s.check d = .ok found := by
  show (s.check d).map (fun _ => ()) = .ok () ↔ _
  simp [map_eq_ok_iff]

theorem check_optionalRecord_iff :
    (optionalRecord name spellings s).check d = .ok () ↔
      d = .null ∨ ∃ found, s.check d = .ok found := by
  by_cases hnull : d = .null
  · subst hnull
    exact iff_of_true rfl (.inl rfl)
  · have hcheck : (optionalRecord name spellings s).check d = (record name spellings s).check d := by
      cases d with
      | null => exact absurd rfl hnull
      | _ => rfl
    rw [hcheck, check_record_iff, or_iff_right hnull]

theorem entry_record (h : s.Asks es) :
    (record name spellings s).entry = .record name spellings es :=
  congrArg (Entry.mk name spellings true)
    (funext fun _ => propext (check_record_iff.trans h.exists_check_iff))

theorem entry_optionalRecord (h : s.Asks es) :
    (optionalRecord name spellings s).entry = .optionalRecord name spellings es :=
  congrArg (Entry.mk name spellings false)
    (funext fun _ => propext (check_optionalRecord_iff.trans (or_congr_right h.exists_check_iff)))

end Field

end TokenKeeper.Json
