import Mathlib.Data.List.Basic
import TokenKeeper.Json.Schema
import TokenKeeper.Proofs.Outcome

/-!
# The members of a record

An object is a record exactly if each member fits, no field is given twice and every field is given
that must be (`Schema.Admits`); what is read are then the fields that are given, in the order of the
members (`Schema.check_object_eq_ok_iff`). Neither condition depends on where a member stands, and a
field has at most one value, so its value can be looked up by membership alone.
-/

namespace TokenKeeper.Json

namespace Draft

mutual

/-- Nothing in the text of the value keeps it from being JSON. -/
def IsWhole : Draft → Prop
  | .broken _ => False
  | .array items stop => stop = none ∧ ItemsWhole items
  | .object members stop => stop = none ∧ MembersWhole members
  | _ => True

def ItemsWhole : List Draft → Prop
  | [] => True
  | v :: vs => v.IsWhole ∧ ItemsWhole vs

def MembersWhole : List (DraftText × Draft) → Prop
  | [] => True
  | (_, v) :: ms => v.IsWhole ∧ MembersWhole ms

end

mutual

theorem skipFault_of_isWhole : (d : Draft) → d.IsWhole → d.skipFault = none
  | .null, _ | .bool _, _ | .number _, _ | .string _, _ => rfl
  | .broken _, h => h.elim
  | .array items _, h => by rw [skipFault, skipItems_of_whole items h.2, h.1]; rfl
  | .object members _, h => by rw [skipFault, skipMembers_of_whole members h.2, h.1]; rfl

theorem skipItems_of_whole : (vs : List Draft) → ItemsWhole vs → skipItems vs = none
  | [], _ => rfl
  | v :: vs, h => by
    rw [skipItems, skipFault_of_isWhole v h.1, skipItems_of_whole vs h.2]
    rfl

theorem skipMembers_of_whole : (ms : List (DraftText × Draft)) → MembersWhole ms →
    skipMembers ms = none
  | [], _ => rfl
  | (_, v) :: ms, h => by
    rw [skipMembers, skipFault_of_isWhole v h.1, skipMembers_of_whole ms h.2]
    rfl

end

end Draft

abbrev Members := List (DraftText × Draft)

/-- The keys by which a field goes. -/
def Field.keys (f : Field) : List String := f.name :: f.spellings

namespace Schema
variable {s : Schema} {f : Field} {key : String} {v : Draft} {ms ms' : Members} {found : Fields}

/-- No key belongs to two fields. -/
def IsUnambiguous (s : Schema) : Prop := s.fields.Pairwise fun f g => ∀ key ∈ f.keys, key ∉ g.keys

instance (s : Schema) : Decidable s.IsUnambiguous := by unfold IsUnambiguous; infer_instance

theorem goesBy_iff : (f.name == key || f.spellings.contains key) = true ↔ key ∈ f.keys := by
  simp only [Field.keys, Bool.or_eq_true, beq_iff_eq, List.contains_iff_mem, List.mem_cons]
  exact or_congr_left eq_comm

theorem mem_of_field? (h : s.field? key = some f) : f ∈ s.fields ∧ key ∈ f.keys :=
  ⟨List.mem_of_find?_eq_some h, goesBy_iff.1 (by
    have hgoes := List.find?_some h
    exact hgoes)⟩

theorem field?_eq_none_iff : s.field? key = none ↔ ∀ f ∈ s.fields, key ∉ f.keys := by
  simp only [field?, List.find?_eq_none, goesBy_iff]

theorem field?_eq_some (hs : s.IsUnambiguous) (hf : f ∈ s.fields) (hk : key ∈ f.keys) :
    s.field? key = some f := by
  unfold field?
  unfold IsUnambiguous at hs
  generalize s.fields = fields at hs hf
  induction fields with
  | nil => cases hf
  | cons g fs ih =>
    obtain ⟨hg, hfs⟩ := List.pairwise_cons.1 hs
    rcases List.mem_cons.1 hf with rfl | hf
    · exact List.find?_cons_of_pos
        (p := fun f : Field => f.name == key || f.spellings.contains key) (goesBy_iff.2 hk)
    · have hother : ¬ (g.name == key || g.spellings.contains key) = true :=
        mt goesBy_iff.1 fun hkg => hg f hf key hkg hk
      rw [List.find?_cons_of_neg
        (p := fun f : Field => f.name == key || f.spellings.contains key) hother]
      exact ih hfs hf

theorem IsUnambiguous.eq_of_name (hs : s.IsUnambiguous) {g : Field} (hf : f ∈ s.fields)
    (hg : g ∈ s.fields) (h : g.name = f.name) : g = f :=
  Option.some.inj ((field?_eq_some hs hg (.head _)).symm.trans
    (h ▸ field?_eq_some hs hf (.head _)))

/-- The fields that members give, in their order. -/
def known (s : Schema) (ms : Members) : Fields :=
  ms.filterMap fun m => m.1.toOption.bind fun key => (s.field? key).map fun f => (f.name, m.2)

def given (s : Schema) (ms : Members) : List String := (s.known ms).map Prod.fst

/-- A member that may stand in the record: its value is what its field asks for, or it is none of
the fields and can be skipped. -/
inductive Fits (s : Schema) : DraftText × Draft → Prop
  | known {key : String} {v : Draft} {f : Field} (h : s.field? key = some f)
      (hv : f.check v = .ok ()) : Fits s (.ok key, v)
  | other {key : String} {v : Draft} (h : s.field? key = none) (hv : v.skipFault = none) :
      Fits s (.ok key, v)

/-- The members make a record. -/
structure Admits (s : Schema) (ms : Members) : Prop where
  fits : ∀ m ∈ ms, s.Fits m
  once : (s.given ms).Nodup
  complete : ∀ f ∈ s.fields, f.optional = false → f.name ∈ s.given ms

theorem known_cons_some (h : s.field? key = some f) (v : Draft) (ms : Members) :
    s.known ((.ok key, v) :: ms) = (f.name, v) :: s.known ms := by
  simp [known, Except.toOption, h]

theorem known_cons_none (h : s.field? key = none) (v : Draft) (ms : Members) :
    s.known ((.ok key, v) :: ms) = s.known ms := by
  simp [known, Except.toOption, h]

theorem fits_known_iff (h : s.field? key = some f) : s.Fits (.ok key, v) ↔ f.check v = .ok () := by
  refine ⟨fun hfits => ?_, .known h⟩
  cases hfits with
  | known h' hv => cases h.symm.trans h'; exact hv
  | other h' => cases h.symm.trans h'

theorem fits_other_iff (h : s.field? key = none) : s.Fits (.ok key, v) ↔ v.skipFault = none := by
  refine ⟨fun hfits => ?_, .other h⟩
  cases hfits with
  | known h' => cases h.symm.trans h'
  | other _ hv => exact hv

theorem skip_eq_ok_iff : v.skip = .ok () ↔ v.skipFault = none := by
  unfold Draft.skip
  cases v.skipFault <;> simp

theorem isSome_lookup_iff {seen : Fields} {name : String} :
    (seen.lookup name).isSome = true ↔ name ∈ seen.map Prod.fst := by
  simp only [List.lookup_isSome_iff, beq_iff_eq, List.mem_map]
  exact ⟨fun ⟨p, hp, h⟩ => ⟨p, hp, h.symm⟩, fun ⟨p, hp, h⟩ => ⟨p, hp, h.symm⟩⟩

theorem checkMembers_eq_ok_iff (seen : Fields) (ms : Members) :
    s.checkMembers seen ms = .ok found ↔
      (∀ m ∈ ms, s.Fits m) ∧ (s.given ms).Nodup ∧ (∀ name ∈ s.given ms, name ∉ seen.map Prod.fst) ∧
        found = seen ++ s.known ms := by
  induction ms generalizing seen with
  | nil => simp [checkMembers, given, known, eq_comm]
  | cons m ms ih =>
    obtain ⟨key | key, v⟩ := m
    · simp only [checkMembers, reduceCtorEq, List.forall_mem_cons, false_iff, not_and]
      exact fun h => nomatch h.1
    cases hfield : s.field? key with
    | none =>
      have hstep : s.checkMembers seen ((.ok key, v) :: ms) =
          v.skip.bind fun _ => s.checkMembers seen ms := by
        rw [checkMembers, hfield]; rfl
      have hgiven : s.given ((.ok key, v) :: ms) = s.given ms :=
        congrArg (List.map Prod.fst) (known_cons_none hfield v ms)
      rw [hstep, check_bind_eq_ok_iff, List.forall_mem_cons, fits_other_iff hfield,
        known_cons_none hfield, hgiven,
        ← skip_eq_ok_iff, and_assoc, ← ih]
    | some f =>
      have hgiven : s.given ((.ok key, v) :: ms) = f.name :: s.given ms :=
        congrArg (List.map Prod.fst) (known_cons_some hfield v ms)
      rw [List.forall_mem_cons, fits_known_iff hfield, known_cons_some hfield, hgiven,
        List.nodup_cons, List.forall_mem_cons]
      by_cases hseen : f.name ∈ seen.map Prod.fst
      · have hstep : s.checkMembers seen ((.ok key, v) :: ms) = .error (.duplicate f.name) := by
          simp only [checkMembers, hfield, isSome_lookup_iff.2 hseen, ↓reduceIte]
        simp [hstep, hseen]
      · have hstep : s.checkMembers seen ((.ok key, v) :: ms) =
            (f.check v).bind fun _ => s.checkMembers (seen ++ [(f.name, v)]) ms := by
          simp only [checkMembers, hfield, isSome_lookup_iff, hseen, ↓reduceIte]
          rfl
        have hnew : (∀ name ∈ s.given ms, name ∉ (seen ++ [(f.name, v)]).map Prod.fst) ↔
            f.name ∉ s.given ms ∧ ∀ name ∈ s.given ms, name ∉ seen.map Prod.fst := by
          simp only [List.map_append, List.mem_append, List.map_cons, List.map_nil,
            List.mem_singleton, not_or]
          exact ⟨fun h => ⟨fun hmem => (h _ hmem).2 rfl, fun name hmem => (h name hmem).1⟩,
            fun h name hmem => ⟨h.2 name hmem, fun heq => h.1 (heq ▸ hmem)⟩⟩
        rw [hstep, check_bind_eq_ok_iff, ih, hnew, List.append_assoc, List.singleton_append]
        exact ⟨fun ⟨hcheck, hfits, hnodup, ⟨hfresh, hothers⟩, hfound⟩ =>
            ⟨⟨hcheck, hfits⟩, ⟨hfresh, hnodup⟩, ⟨hseen, hothers⟩, hfound⟩,
          fun ⟨⟨hcheck, hfits⟩, ⟨hfresh, hnodup⟩, ⟨_, hothers⟩, hfound⟩ =>
            ⟨hcheck, hfits, hnodup, ⟨hfresh, hothers⟩, hfound⟩⟩

theorem checkPresent_eq_ok_iff {read : Fields} :
    s.checkPresent read = .ok found ↔
      (∀ f ∈ s.fields, f.optional = false → f.name ∈ read.map Prod.fst) ∧ found = read := by
  have hnone : (s.fields.find? fun f => !f.optional && (read.lookup f.name).isNone) = none ↔
      ∀ f ∈ s.fields, f.optional = false → f.name ∈ read.map Prod.fst := by
    simp only [List.find?_eq_none, Bool.and_eq_true, Bool.not_eq_true', not_and, Bool.not_eq_true,
      Option.isNone_eq_false_iff, isSome_lookup_iff]
  rw [← hnone, checkPresent]
  split
  · next g hg => simp [hg]
  · next hg => simp [hg, eq_comm]

/-- An object that was read to its end is checked member by member. -/
theorem check_object_eq_ok_iff {stop : Option Break} :
    s.check (.object ms stop) = .ok found ↔ stop = none ∧ s.Admits ms ∧ found = s.known ms := by
  cases stop with
  | some b =>
    have hcheck : s.check (.object ms (some b)) =
        (s.checkMembers [] ms).bind fun _ => .error (.fault b.read) := rfl
    simp [hcheck, bind_eq_ok_iff]
  | none =>
    have hcheck : s.check (.object ms none) = (s.checkMembers [] ms).bind s.checkPresent := rfl
    rw [hcheck, bind_eq_ok_iff]
    simp only [checkMembers_eq_ok_iff, checkPresent_eq_ok_iff, List.map_nil, List.not_mem_nil,
      not_false_eq_true, implies_true, List.nil_append, true_and]
    constructor
    · rintro ⟨_, ⟨hfits, honce, rfl⟩, hcomplete, rfl⟩
      exact ⟨⟨hfits, honce, hcomplete⟩, rfl⟩
    · rintro ⟨hadmits, rfl⟩
      exact ⟨_, ⟨hadmits.fits, hadmits.once, rfl⟩, hadmits.complete, rfl⟩

theorem lookup_eq_some_iff {name : String} (h : (found.map Prod.fst).Nodup) :
    found.lookup name = some v ↔ (name, v) ∈ found := by
  induction found with
  | nil => simp
  | cons p found ih =>
    obtain ⟨other, w⟩ := p
    obtain ⟨hother, hrest⟩ := List.nodup_cons.1 h
    rw [List.lookup_cons, List.mem_cons, Prod.mk.injEq, ← ih hrest]
    by_cases hname : name = other
    · subst hname
      have hnot : found.lookup name ≠ some v :=
        fun hv => hother (isSome_lookup_iff.1 (by rw [hv]; rfl))
      simp [hnot, eq_comm]
    · simp [beq_false_of_ne hname, hname]

theorem mem_known_iff (hs : s.IsUnambiguous) (hf : f ∈ s.fields) :
    (f.name, v) ∈ s.known ms ↔ ∃ key ∈ f.keys, (.ok key, v) ∈ ms := by
  simp only [known, List.mem_filterMap, Option.bind_eq_some_iff, Option.map_eq_some_iff,
    Prod.mk.injEq]
  constructor
  · rintro ⟨⟨k, w⟩, hm, key, hkey, g, hg, hname, rfl⟩
    obtain rfl := ok_of_toOption hkey
    obtain ⟨hmem, hkeys⟩ := mem_of_field? hg
    obtain rfl := hs.eq_of_name hf hmem hname
    exact ⟨key, hkeys, hm⟩
  · rintro ⟨key, hkey, hm⟩
    exact ⟨_, hm, key, rfl, f, field?_eq_some hs hf hkey, rfl, rfl⟩

/-- A field's value is that of the one member that gives it. -/
theorem lookup_known_iff (hs : s.IsUnambiguous) (hf : f ∈ s.fields) (h : s.Admits ms) :
    (s.known ms).lookup f.name = some v ↔ ∃ key ∈ f.keys, (.ok key, v) ∈ ms :=
  (lookup_eq_some_iff h.once).trans (mem_known_iff hs hf)

theorem Admits.perm (hperm : ms.Perm ms') (h : s.Admits ms) : s.Admits ms' where
  fits m hm := h.fits m (hperm.mem_iff.2 hm)
  once := ((hperm.filterMap _).map _).nodup_iff.1 h.once
  complete f hf hmust := ((hperm.filterMap _).map _).mem_iff.1 (h.complete f hf hmust)

theorem Admits.not_twice (hs : s.IsUnambiguous) (h : s.Admits ms) (hf : f ∈ s.fields)
    {key' : String} {v' : Draft} (hk : key ∈ f.keys) (hk' : key' ∈ f.keys) :
    ¬ List.Sublist [(.ok key, v), (.ok key', v')] ms := fun hsub => by
  have htwice : s.given [(.ok key, v), (.ok key', v')] = [f.name, f.name] := by
    rw [given, known_cons_some (field?_eq_some hs hf hk),
      known_cons_some (field?_eq_some hs hf hk')]
    rfl
  have hgiven : [f.name, f.name].Sublist (s.given ms) := htwice ▸ (hsub.filterMap _).map _
  exact absurd (hgiven.nodup h.once) (by simp)

end Schema
end TokenKeeper.Json
