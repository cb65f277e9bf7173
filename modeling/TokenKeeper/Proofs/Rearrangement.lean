import Mathlib.Data.Option.Basic
import TokenKeeper.Proofs.Members

/-!
# Objects that say the same

The members of an object may be rearranged: stand in another order, go by another key of their
field, be joined by members that mean nothing (`Rearranged`). Records nest, and a record inside may be
rearranged likewise. Checking does not tell the two apart (`check_rearranged`): either both are
records or neither is, and then the fields have the same values, up to rearrangement inside. On the
other hand nothing inside a record is exempt from checking (`Part.check`).

What the value of a field is, a text, a truth value or a record itself, is told by the field's name.
-/

namespace TokenKeeper.Json

/-- What the value of a field is. -/
inductive Shape where
  | text
  | flag
  | record (s : Schema)

def Shape.Takes : Shape → Draft → Prop
  | text, d => ∃ text, d = .string (.ok text)
  | flag, d => ∃ b, d = .bool b
  | record s, d => ∃ found, s.check d = .ok found

abbrev Shapes := String → Shape

variable {shapes : Shapes} {s s' s'' : Schema} {f : Field} {key key' : String}
  {d d' d'' v v' : Draft} {ms ms' : Members} {found found' : Fields}

/-- Two values of a record say the same. -/
inductive Rearranged (shapes : Shapes) : Schema → Draft → Draft → Prop
  | refl (s : Schema) (d : Draft) : Rearranged shapes s d d
  | symm {s : Schema} {d d' : Draft} (h : Rearranged shapes s d d') : Rearranged shapes s d' d
  | trans {s : Schema} {d d' d'' : Draft} (h : Rearranged shapes s d d')
      (h' : Rearranged shapes s d' d'') : Rearranged shapes s d d''
  /-- The members stand in another order. -/
  | reorder {s : Schema} {ms ms' : Members} (h : ms.Perm ms') :
      Rearranged shapes s (.object ms none) (.object ms' none)
  /-- A member goes by another key of its field. -/
  | respell {s : Schema} {f : Field} {key key' : String} (hf : f ∈ s.fields) (hk : key ∈ f.keys)
      (hk' : key' ∈ f.keys) (v : Draft) (ms : Members) :
      Rearranged shapes s (.object ((.ok key, v) :: ms) none) (.object ((.ok key', v) :: ms) none)
  /-- There is a member more, whose key belongs to no field. -/
  | other {s : Schema} {key : String} {v : Draft} (hk : ∀ f ∈ s.fields, key ∉ f.keys)
      (hv : v.IsWhole) (ms : Members) :
      Rearranged shapes s (.object ms none) (.object ((.ok key, v) :: ms) none)
  /-- An optional field that was left out is null. -/
  | null {s : Schema} {f : Field} {key : String} {ms : Members} (hf : f ∈ s.fields)
      (hopt : f.optional = true) (hk : key ∈ f.keys)
      (hms : ∀ k ∈ f.keys, ∀ v, ((.ok k, v) : DraftText × Draft) ∉ ms) :
      Rearranged shapes s (.object ms none) (.object ((.ok key, .null) :: ms) none)
  /-- The value of a field that is a record is rearranged. -/
  | within {s s' : Schema} {f : Field} {key : String} {v v' : Draft} (hf : f ∈ s.fields)
      (hs : shapes f.name = .record s') (hk : key ∈ f.keys) (h : Rearranged shapes s' v v')
      (ms : Members) :
      Rearranged shapes s (.object ((.ok key, v) :: ms) none) (.object ((.ok key, v') :: ms) none)

def Draft.isNull : Draft → Bool
  | .null => true
  | _ => false

theorem Draft.eq_null_of_isNull (h : d.isNull = true) : d = .null := by
  cases d with
  | null => rfl
  | _ => cases h

theorem Rearranged.isNull_eq (h : Rearranged shapes s d d') : d.isNull = d'.isNull := by
  induction h with
  | symm _ ih => exact ih.symm
  | trans _ _ ih ih' => exact ih.trans ih'
  | _ => rfl

/-- The value of a field, where null stands for none. -/
def Fields.value? (found : Fields) (name : String) : Option Draft :=
  (found.lookup name).filter fun d => !d.isNull

/-- The values of the field are the same, or the one is the other rearranged. -/
inductive SameValue (shapes : Shapes) (name : String) : Option Draft → Option Draft → Prop
  | same (o : Option Draft) : SameValue shapes name o o
  | within {s' : Schema} {v v' : Draft} (hs : shapes name = .record s')
      (h : Rearranged shapes s' v v') : SameValue shapes name (some v) (some v')

/-- All fields of the record have the same values, up to rearrangement. -/
def Alike (shapes : Shapes) (s : Schema) (found found' : Fields) : Prop :=
  ∀ f ∈ s.fields, SameValue shapes f.name (found.value? f.name) (found'.value? f.name)

/-- Neither is a record, or both are with the same values. -/
inductive Agree (shapes : Shapes) (s : Schema) : Except Misfit Fields → Except Misfit Fields → Prop
  | both {found found' : Fields} (h : Alike shapes s found found') :
      Agree shapes s (.ok found) (.ok found')
  | neither (e e' : Misfit) : Agree shapes s (.error e) (.error e')

namespace SameValue
variable {name : String} {o o' o'' : Option Draft}

theorem symm (h : SameValue shapes name o o') : SameValue shapes name o' o := by
  cases h with
  | same => exact .same _
  | within hs h => exact .within hs h.symm

theorem trans (h : SameValue shapes name o o') (h' : SameValue shapes name o' o'') :
    SameValue shapes name o o'' := by
  cases h with
  | same => exact h'
  | within hs h =>
    cases h' with
    | same => exact .within hs h
    | within hs' h' =>
      obtain rfl := Shape.record.inj (hs.symm.trans hs')
      exact .within hs (h.trans h')

theorem eq (h : SameValue shapes name o o') (hshapes : ∀ s, shapes name ≠ .record s) : o = o' := by
  cases h with
  | same => rfl
  | within hs => exact absurd hs (hshapes _)

end SameValue

namespace Alike

theorem of_lookup_eq (h : ∀ f ∈ s.fields, found.lookup f.name = found'.lookup f.name) :
    Alike shapes s found found' := fun f hf => by
  rw [Fields.value?, Fields.value?, h f hf]
  exact .same _

theorem refl (s : Schema) (found : Fields) : Alike shapes s found found :=
  .of_lookup_eq fun _ _ => rfl

theorem symm (h : Alike shapes s found found') : Alike shapes s found' found :=
  fun f hf => (h f hf).symm

theorem trans {found'' : Fields} (h : Alike shapes s found found')
    (h' : Alike shapes s found' found'') : Alike shapes s found found'' :=
  fun f hf => (h f hf).trans (h' f hf)

theorem within {name : String} (hs : shapes name = .record s') (h : Rearranged shapes s' v v')
    (rest : Fields) : Alike shapes s ((name, v) :: rest) ((name, v') :: rest) := by
  intro g _
  by_cases hg : g.name = name
  · have hvalue (w : Draft) : Fields.value? ((name, w) :: rest) g.name =
        (some w).filter fun d => !d.isNull := by simp [Fields.value?, hg]
    rw [hvalue, hvalue, Option.filter_some, Option.filter_some, ← h.isNull_eq]
    split
    · exact .within (hg ▸ hs) h
    · exact .same _
  · have hvalue (w : Draft) : Fields.value? ((name, w) :: rest) g.name = rest.value? g.name := by
      simp [Fields.value?, List.lookup_cons, beq_false_of_ne hg]
    rw [hvalue, hvalue]
    exact .same _

theorem null {name : String} (h : name ∉ found.map Prod.fst) :
    Alike shapes s found ((name, .null) :: found) := by
  intro g _
  by_cases hg : g.name = name
  · have hnone : found.lookup name = none := by
      rw [← Option.not_isSome_iff_eq_none, Schema.isSome_lookup_iff]
      exact h
    simp only [Fields.value?, List.lookup_cons, hg, beq_self_eq_true, hnone]
    exact .same _
  · simp only [Fields.value?, List.lookup_cons, beq_false_of_ne hg]
    exact .same _

end Alike

namespace Agree
variable {x y z : Except Misfit Fields}

theorem refl (s : Schema) (x : Except Misfit Fields) : Agree shapes s x x := by
  cases x with
  | error e => exact .neither e e
  | ok found => exact .both (.refl s found)

theorem symm (h : Agree shapes s x y) : Agree shapes s y x := by
  cases h with
  | both h => exact .both h.symm
  | neither e e' => exact .neither e' e

theorem trans (h : Agree shapes s x y) (h' : Agree shapes s y z) : Agree shapes s x z := by
  cases h with
  | neither e e' => cases h' with | neither _ e'' => exact .neither e e''
  | both h => cases h' with | both h' => exact .both (h.trans h')

theorem exists_ok_iff (h : Agree shapes s x y) :
    (∃ found, x = .ok found) ↔ ∃ found, y = .ok found := by
  cases h with
  | both => exact ⟨fun _ => ⟨_, rfl⟩, fun _ => ⟨_, rfl⟩⟩
  | neither => exact ⟨fun ⟨_, h⟩ => (nomatch h), fun ⟨_, h⟩ => (nomatch h)⟩

/-- Two objects agree if they make records together, with the same values. -/
theorem of_admits (hiff : s.Admits ms ↔ s.Admits ms')
    (halike : s.Admits ms → Alike shapes s (s.known ms) (s.known ms')) :
    Agree shapes s (s.check (.object ms none)) (s.check (.object ms' none)) := by
  by_cases h : s.Admits ms
  · rw [Schema.check_object_eq_ok_iff.2 ⟨rfl, h, rfl⟩,
      Schema.check_object_eq_ok_iff.2 ⟨rfl, hiff.1 h, rfl⟩]
    exact .both (halike h)
  · have herror {ms : Members} (h : ¬ s.Admits ms) : ∃ e, s.check (.object ms none) = .error e := by
      cases hcheck : s.check (.object ms none) with
      | error e => exact ⟨e, rfl⟩
      | ok found => exact absurd (Schema.check_object_eq_ok_iff.1 hcheck).2.1 h
    obtain ⟨e, he⟩ := herror h
    obtain ⟨e', he'⟩ := herror (mt hiff.2 h)
    rw [he, he']
    exact .neither e e'

end Agree

/-! ## Schemas -/

/-- A field takes null if it is optional, and otherwise what is of its shape. -/
structure Field.Reads (shapes : Shapes) (f : Field) : Prop where
  null : f.optional = true → f.check .null = .ok ()
  takes : ∀ d, d.isNull = false → (f.check d = .ok () ↔ (shapes f.name).Takes d)

/-- No two fields share a key, and each reads what it should. -/
structure Schema.Nests (shapes : Shapes) (s : Schema) : Prop where
  unambiguous : s.IsUnambiguous
  reads : ∀ f ∈ s.fields, f.Reads shapes

/-- All records inside nest. -/
def Shapes.Nest (shapes : Shapes) : Prop := ∀ name s, shapes name = .record s → s.Nests shapes

namespace Schema

theorem admits_cons_some (hs : s.IsUnambiguous) (hf : f ∈ s.fields) (hk : key ∈ f.keys) :
    s.Admits ((.ok key, v) :: ms) ↔
      f.check v = .ok () ∧ (∀ m ∈ ms, s.Fits m) ∧ f.name ∉ s.given ms ∧ (s.given ms).Nodup ∧
        ∀ g ∈ s.fields, g.optional = false → g.name = f.name ∨ g.name ∈ s.given ms := by
  have hfield := field?_eq_some hs hf hk
  have hgiven : s.given ((.ok key, v) :: ms) = f.name :: s.given ms :=
    congrArg (List.map Prod.fst) (known_cons_some hfield v ms)
  constructor
  · rintro ⟨hfits, honce, hcomplete⟩
    obtain ⟨hv, hfits⟩ := List.forall_mem_cons.1 hfits
    rw [hgiven] at honce hcomplete
    obtain ⟨hnew, honce⟩ := List.nodup_cons.1 honce
    exact ⟨(fits_known_iff hfield).1 hv, hfits, hnew, honce,
      fun g hg hmust => List.mem_cons.1 (hcomplete g hg hmust)⟩
  · rintro ⟨hv, hfits, hnew, honce, hcomplete⟩
    refine ⟨List.forall_mem_cons.2 ⟨(fits_known_iff hfield).2 hv, hfits⟩, ?_, fun g hg hmust => ?_⟩
    · rw [hgiven]
      exact List.nodup_cons.2 ⟨hnew, honce⟩
    · rw [hgiven]
      exact List.mem_cons.2 (hcomplete g hg hmust)

theorem admits_cons_none (hk : ∀ f ∈ s.fields, key ∉ f.keys) (hv : v.IsWhole) :
    s.Admits ((.ok key, v) :: ms) ↔ s.Admits ms := by
  have hfield := field?_eq_none_iff.2 hk
  have hgiven : s.given ((.ok key, v) :: ms) = s.given ms :=
    congrArg (List.map Prod.fst) (known_cons_none hfield v ms)
  have hskip := v.skipFault_of_isWhole hv
  constructor
  · rintro ⟨hfits, honce, hcomplete⟩
    rw [hgiven] at honce hcomplete
    exact ⟨(List.forall_mem_cons.1 hfits).2, honce, hcomplete⟩
  · rintro ⟨hfits, honce, hcomplete⟩
    rw [← hgiven] at honce hcomplete
    exact ⟨List.forall_mem_cons.2 ⟨(fits_other_iff hfield).2 hskip, hfits⟩, honce, hcomplete⟩

theorem not_mem_given (hs : s.IsUnambiguous) (hf : f ∈ s.fields)
    (h : ∀ key ∈ f.keys, ∀ v, ((.ok key, v) : DraftText × Draft) ∉ ms) : f.name ∉ s.given ms := by
  rintro hmem
  obtain ⟨⟨name, v⟩, hv, rfl⟩ := List.mem_map.1 hmem
  obtain ⟨key, hkey, hm⟩ := (mem_known_iff hs hf).1 hv
  exact h key hkey v hm

end Schema

theorem Field.Reads.check_iff {f : Field} (hf : f.Reads shapes) (hs' : shapes f.name = .record s')
    (hnull : d'.isNull = d.isNull) (h : Agree shapes s' (s'.check d) (s'.check d')) :
    f.check d = .ok () ↔ f.check d' = .ok () := by
  cases hd : d.isNull with
  | true =>
    obtain rfl := Draft.eq_null_of_isNull hd
    obtain rfl := Draft.eq_null_of_isNull (hnull.trans hd)
    rfl
  | false =>
    rw [hf.takes d hd, hf.takes d' (hnull.trans hd), hs']
    exact h.exists_ok_iff

/-- Checking does not tell a record from one rearranged. -/
theorem check_rearranged (hshapes : shapes.Nest) (hs : s.Nests shapes)
    (h : Rearranged shapes s d d') : Agree shapes s (s.check d) (s.check d') := by
  induction h with
  | refl s d => exact .refl s _
  | symm _ ih => exact (ih hs).symm
  | trans _ _ ih ih' => exact (ih hs).trans (ih' hs)
  | @reorder s ms ms' h =>
    refine .of_admits ⟨.perm h, .perm h.symm⟩ fun hms =>
      .of_lookup_eq fun f hf => Option.ext fun v => ?_
    rw [Schema.lookup_known_iff hs.unambiguous hf hms,
      Schema.lookup_known_iff hs.unambiguous hf (hms.perm h)]
    simp only [h.mem_iff]
  | @respell s f key key' hf hk hk' v ms =>
    have hs := hs.unambiguous
    refine .of_admits ?_ fun _ => ?_
    · rw [Schema.admits_cons_some hs hf hk, Schema.admits_cons_some hs hf hk']
    · rw [Schema.known_cons_some (Schema.field?_eq_some hs hf hk),
        Schema.known_cons_some (Schema.field?_eq_some hs hf hk')]
      exact .refl s _
  | @other s key v hk hv ms =>
    refine .of_admits (Schema.admits_cons_none hk hv).symm fun _ => ?_
    rw [Schema.known_cons_none (Schema.field?_eq_none_iff.2 hk)]
    exact .refl s _
  | @null s f key ms hf hopt hk hms =>
    have hnew := Schema.not_mem_given hs.unambiguous hf hms
    have hmust (g : Field) (hg : g ∈ s.fields) (hgopt : g.optional = false) : g.name ≠ f.name :=
      fun hname => by
        rw [hs.unambiguous.eq_of_name hf hg hname, hopt] at hgopt
        cases hgopt
    refine .of_admits ?_ fun _ => ?_
    · rw [Schema.admits_cons_some hs.unambiguous hf hk]
      exact ⟨fun ⟨hfits, honce, hcomplete⟩ => ⟨(hs.reads f hf).null hopt, hfits, hnew, honce,
          fun g hg hgopt => .inr (hcomplete g hg hgopt)⟩,
        fun ⟨_, hfits, _, honce, hcomplete⟩ => ⟨hfits, honce, fun g hg hgopt =>
          (hcomplete g hg hgopt).resolve_left (hmust g hg hgopt)⟩⟩
    · rw [Schema.known_cons_some (Schema.field?_eq_some hs.unambiguous hf hk)]
      exact .null hnew
  | @within s s' f key v v' hf hs' hk h ms ih =>
    have hagree := ih (hshapes _ _ hs')
    have hcheck := (hs.reads f hf).check_iff hs' h.isNull_eq.symm hagree
    refine .of_admits ?_ fun _ => ?_
    · rw [Schema.admits_cons_some hs.unambiguous hf hk,
        Schema.admits_cons_some hs.unambiguous hf hk, hcheck]
    · have hfield := Schema.field?_eq_some hs.unambiguous hf hk
      rw [Schema.known_cons_some hfield, Schema.known_cons_some hfield]
      exact .within hs' h _

/-! ## What the fields are read as -/

namespace Alike
variable {name : String}

theorem text?_eq (h : Alike shapes s found found') (hf : f ∈ s.fields)
    (hshapes : shapes f.name = .text) : found.text? f.name = found'.text? f.name := by
  have hvalue (fs : Fields) : fs.text? f.name = (fs.value? f.name).bind Draft.text? := by
    rw [Fields.text?, Fields.value?]
    rcases fs.lookup f.name with _ | _ | _ <;> rfl
  rw [hvalue, hvalue, (h f hf).eq fun s => by rw [hshapes]; exact Shape.noConfusion]

theorem flag?_eq (h : Alike shapes s found found') (hf : f ∈ s.fields)
    (hshapes : shapes f.name = .flag) : found.flag? f.name = found'.flag? f.name := by
  have hvalue (fs : Fields) : fs.flag? f.name = (fs.value? f.name).bind Draft.flag? := by
    rw [Fields.flag?, Fields.value?]
    rcases fs.lookup f.name with _ | _ | _ <;> rfl
  rw [hvalue, hvalue, (h f hf).eq fun s => by rw [hshapes]; exact Shape.noConfusion]

theorem record? (hshapes : shapes.Nest) (h : Alike shapes s found found')
    (hf : f ∈ s.fields) (hs' : shapes f.name = .record s') :
    Option.Rel (Alike shapes s') (found.record? f.name s') (found'.record? f.name s') := by
  have hvalue (fs : Fields) : fs.record? f.name s' =
      (fs.value? f.name).bind fun d => (s'.check d).toOption := by
    rw [Fields.record?, Fields.value?]
    rcases fs.lookup f.name with _ | _ | _ <;> rfl
  rw [hvalue, hvalue]
  have hsame := h f hf
  generalize found.value? f.name = o, found'.value? f.name = o' at hsame ⊢
  cases hsame with
  | same =>
    rcases o.bind _ with _ | a
    · exact .none
    · exact .some (.refl s' a)
  | @within s'' v v' hs'' hv =>
    obtain rfl := Shape.record.inj (hs'.symm.trans hs'')
    have hagree := check_rearranged hshapes (hshapes _ _ hs') hv
    show Option.Rel _ (s'.check v).toOption (s'.check v').toOption
    generalize s'.check v = x, s'.check v' = y at hagree ⊢
    cases hagree with
    | both h => exact .some h
    | neither => exact .none

theorem getD {o o' : Option Fields} (h : Option.Rel (Alike shapes s) o o') :
    Alike shapes s (o.getD []) (o'.getD []) := by
  cases h with
  | some h => exact h
  | none => exact .refl s []

theorem map_eq {R : Type} {g : Fields → R} {o o' : Option Fields}
    (h : Option.Rel (Alike shapes s) o o')
    (hg : ∀ found found', Alike shapes s found found' → g found = g found') :
    o.map g = o'.map g := by
  cases h with
  | some h => exact congrArg some (hg _ _ h)
  | none => rfl

end Alike

/-! ## Records inside -/

/-- The draft `w` is the value of a record inside `d`, or `d` itself. -/
inductive Part (shapes : Shapes) : Schema → Draft → Schema → Draft → Prop
  | whole (s : Schema) (d : Draft) : Part shapes s d s d
  | field {s s' s'' : Schema} {f : Field} {key : String} {v w : Draft} {ms : Members}
      (hf : f ∈ s.fields) (hs : shapes f.name = .record s') (hk : key ∈ f.keys)
      (hm : (.ok key, v) ∈ ms) (h : Part shapes s' v s'' w) : Part shapes s (.object ms none) s'' w

theorem Part.schema_eq (h : Part shapes s d s' d') : s' = s ∨ ∃ name, shapes name = .record s' := by
  induction h with
  | whole => exact .inl rfl
  | field _ hs _ _ _ ih => exact .inr (ih.elim (fun h => h ▸ ⟨_, hs⟩) id)

theorem Part.nests (hshapes : shapes.Nest) (hs : s.Nests shapes)
    (h : Part shapes s d s' d') : s'.Nests shapes :=
  h.schema_eq.elim (fun h => h ▸ hs) fun ⟨name, h⟩ => hshapes name s' h

/-- What must be there and fit must do so in every record inside. -/
theorem Part.check (hshapes : shapes.Nest) (hs : s.Nests shapes)
    (h : Part shapes s d s' d') (hd : ∃ found, s.check d = .ok found) (hnull : d'.isNull = false) :
    ∃ found, s'.check d' = .ok found := by
  induction h with
  | whole => exact hd
  | @field s s' s'' f key v w ms hf hs' hk hm h ih =>
    obtain ⟨_, hcheck⟩ := hd
    obtain ⟨-, hadmits, -⟩ := Schema.check_object_eq_ok_iff.1 hcheck
    cases hv : v.isNull with
    | true =>
      obtain rfl := Draft.eq_null_of_isNull hv
      cases h
      cases hnull
    | false =>
      have hfield := Schema.field?_eq_some hs.unambiguous hf hk
      have hfits := (Schema.fits_known_iff hfield).1 (hadmits.fits _ hm)
      have htakes := ((hs.reads f hf).takes v hv).1 hfits
      rw [hs'] at htakes
      exact ih (hshapes _ _ hs') htakes hnull

end TokenKeeper.Json
