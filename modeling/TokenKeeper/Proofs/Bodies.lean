import TokenKeeper.Proofs.Conclusion
import TokenKeeper.Proofs.Rearrangement

/-!
# The bodies of token responses

How the members of a body stand and are spelled makes no difference to the token read from it
(`ReadsMembers.rearranged`); that nothing is given twice and every leaf is of its type is asked of
every record in the body, also of those that only describe the token (`ReadsMembers.twice`,
`ReadsMembers.shaped`). Both versions read bodies this way, they accept those that have the form of a
response, and what they read is what the members say (`bodies_read_by_members`).
-/

namespace TokenKeeper

namespace Json

theorem Draft.ne_null {d : Draft} (h : d.isNull = false) : d ≠ .null := by
  rintro rfl
  cases h

namespace Field
variable {shapes : Shapes} {s : Schema} {name : String} {spellings : List String}

theorem reads_text (h : shapes name = .text) : (Field.text name spellings).Reads shapes where
  null _ := rfl
  takes _ hd := h ▸ Draft.checkText_eq_ok_iff.trans (or_iff_right (Draft.ne_null hd))

theorem reads_flag (h : shapes name = .flag) : (Field.flag name spellings).Reads shapes where
  null _ := rfl
  takes _ hd := h ▸ Draft.checkFlag_eq_ok_iff.trans (or_iff_right (Draft.ne_null hd))

theorem reads_record (h : shapes name = .record s) :
    (Field.record name spellings s).Reads shapes where
  null hopt := nomatch hopt
  takes _ _ := h ▸ check_record_iff

theorem reads_optionalRecord (h : shapes name = .record s) :
    (Field.optionalRecord name spellings s).Reads shapes where
  null _ := rfl
  takes _ hd := h ▸ check_optionalRecord_iff.trans (or_iff_right (Draft.ne_null hd))

end Field

end Json

open Json

variable {shapes : Shapes} {s : Schema} {d d' : Draft} {found found' : Fields}

/-- Bodies are read by what their members say. -/
structure ReadsMembers {R : Type} (shapes : Shapes) (s : Schema)
    (decode : String → Except AuthError R) : Prop where
  /-- Bodies that are the same but for the arrangement are read alike. -/
  rearranged : ∀ body body' d d', Holds body d → Holds body' d' → Rearranged shapes s d d' →
    ∀ r, decode body = .ok r ↔ decode body' = .ok r
  /-- A field is not given twice, in whatever spellings. -/
  twice : ∀ body d s' ms, Holds body d → Part shapes s d s' (.object ms none) →
    ∀ f ∈ s'.fields, ∀ key ∈ f.keys, ∀ key' ∈ f.keys, ∀ v v',
      List.Sublist [(.ok key, v), (.ok key', v')] ms →
        ∃ reason, decode body = .error (.invalidResponse reason)
  /-- What is given for a field is of the field's shape or null. -/
  shaped : ∀ body d s' ms, Holds body d → Part shapes s d s' (.object ms none) →
    ∀ f ∈ s'.fields, ∀ v, Gives ms f.keys v → v ≠ .null → ¬ (shapes f.name).Takes v →
      ∃ reason, decode body = .error (.invalidResponse reason)

/-- Reading is by members if what is made of the fields depends on their values only. -/
theorem ReadsMembers.of_nests {R : Type} {ofFields : Fields → R}
    (hshapes : shapes.Nest) (hs : s.Nests shapes)
    (halike : ∀ found found', Alike shapes s found found' → ofFields found = ofFields found') :
    ReadsMembers shapes s fun body => (readBody s body).map ofFields := by
  have hrejected (body : String) (d : Draft) (h : Holds body d)
      (hno : ¬ ∃ found, s.check d = .ok found) :
      ∃ reason, (readBody s body).map ofFields = .error (.invalidResponse reason) := by
    cases hread : readBody s body with
    | error e =>
      obtain ⟨reason, rfl⟩ := readBody_onlyRejects s body e hread
      exact ⟨reason, rfl⟩
    | ok found => exact absurd ⟨found, h.readBody_eq_ok_iff.1 hread⟩ hno
  have hadmits (d : Draft) (s' : Schema) (ms : Members) (h : Part shapes s d s' (.object ms none))
      (hd : ∃ found, s.check d = .ok found) : s'.Admits ms := by
    obtain ⟨found, hfound⟩ := h.check hshapes hs hd rfl
    exact (Schema.check_object_eq_ok_iff.1 hfound).2.1
  refine ⟨fun body body' d d' h h' hrearranged r => ?_,
    fun body d s' ms h hpart f hf key hk key' hk' v v' htwice => hrejected body d h fun hd => ?_,
    fun body d s' ms h hpart f hf v ⟨key, hk, hm⟩ hnull hno => hrejected body d h fun hd => ?_⟩
  · simp only [map_eq_ok_iff, h.readBody_eq_ok_iff, h'.readBody_eq_ok_iff]
    have hagree := check_rearranged hshapes hs hrearranged
    generalize s.check d = x, s.check d' = y at hagree
    cases hagree with
    | both h => simp [halike _ _ h]
    | neither => simp
  · have hs' := hpart.nests hshapes hs
    exact (hadmits d s' ms hpart hd).not_twice hs'.unambiguous hf hk hk' htwice
  · have hs' := hpart.nests hshapes hs
    have hfits := (Schema.fits_known_iff (Schema.field?_eq_some hs'.unambiguous hf hk)).1
      ((hadmits d s' ms hpart hd).fits _ hm)
    have hv : v.isNull = false := Bool.eq_false_iff.2 fun h => hnull (Draft.eq_null_of_isNull h)
    exact hno (((hs'.reads f hf).takes v hv).1 hfits)

namespace V2Response

def bodyShapes : Shapes
  | "access" => .record accessSchema
  | "token" => .record tokenSchema
  | "tenant" => .record tenantSchema
  | "user" => .record userSchema
  | "enabled" => .flag
  | _ => .text

theorem schema_nests : schema.Nests bodyShapes where
  unambiguous := schema_asks.unambiguous
  reads := List.forall_iff_forall_mem.1 (Field.reads_record rfl)

theorem accessSchema_nests : accessSchema.Nests bodyShapes where
  unambiguous := accessSchema_asks.unambiguous
  reads := List.forall_iff_forall_mem.1 ⟨Field.reads_record rfl, Field.reads_optionalRecord rfl⟩

theorem tokenSchema_nests : tokenSchema.Nests bodyShapes where
  unambiguous := tokenSchema_asks.unambiguous
  reads := List.forall_iff_forall_mem.1 ⟨Field.reads_text rfl, Field.reads_text rfl,
    Field.reads_text rfl, Field.reads_optionalRecord rfl⟩

theorem tenantSchema_nests : tenantSchema.Nests bodyShapes where
  unambiguous := tenantSchema_asks.unambiguous
  reads := List.forall_iff_forall_mem.1 ⟨Field.reads_text rfl, Field.reads_text rfl,
    Field.reads_text rfl, Field.reads_flag rfl⟩

theorem userSchema_nests : userSchema.Nests bodyShapes where
  unambiguous := userSchema_asks.unambiguous
  reads := List.forall_iff_forall_mem.1 ⟨Field.reads_text rfl, Field.reads_text rfl⟩

theorem bodyShapes_nest : bodyShapes.Nest := by
  intro name s h
  unfold bodyShapes at h
  split at h <;> cases h
  exacts [accessSchema_nests, tokenSchema_nests, tenantSchema_nests, userSchema_nests]

theorem tenant_eq (h : Alike bodyShapes tenantSchema found found') :
    (⟨found.text? "id", found.text? "name", found.text? "description", found.flag? "enabled"⟩ :
      Tenant) = ⟨found'.text? "id", found'.text? "name", found'.text? "description",
        found'.flag? "enabled"⟩ := by
  rw [Tenant.mk.injEq]
  exact ⟨h.text?_eq (f := .text "id" ["Id"]) (.head _) rfl,
    h.text?_eq (f := .text "name" ["Name"]) (.tail _ (.head _)) rfl,
    h.text?_eq (f := .text "description" ["Description"]) (.tail _ (.tail _ (.head _))) rfl,
    h.flag?_eq (f := .flag "enabled" ["Enabled"]) (.tail _ (.tail _ (.tail _ (.head _)))) rfl⟩

theorem user_eq (h : Alike bodyShapes userSchema found found') :
    (⟨found.text? "id", found.text? "username"⟩ : User) =
      ⟨found'.text? "id", found'.text? "username"⟩ := by
  rw [User.mk.injEq]
  exact ⟨h.text?_eq (f := .text "id" ["Id"]) (.head _) rfl,
    h.text?_eq (f := .text "username" ["Username"]) (.tail _ (.head _)) rfl⟩

theorem ofFields_eq (h : Alike bodyShapes schema found found') :
    ofFields found = ofFields found' := by
  have haccess := Alike.getD (h.record? bodyShapes_nest
    (f := .record "access" ["Access"] accessSchema) (.head _) rfl)
  have htoken := Alike.getD (haccess.record? bodyShapes_nest
    (f := .record "token" ["Token"] tokenSchema) (.head _) rfl)
  have huser := haccess.record? bodyShapes_nest
    (f := .optionalRecord "user" ["User"] userSchema) (.tail _ (.head _)) rfl
  have htenant := htoken.record? bodyShapes_nest
    (f := .optionalRecord "tenant" ["Tenant"] tenantSchema)
    (.tail _ (.tail _ (.tail _ (.head _)))) rfl
  rw [ofFields, ofFields, V2Response.mk.injEq]
  exact ⟨htoken.text?_eq (f := .text "id" ["Id"]) (.head _) rfl,
    htoken.text?_eq (f := .text "issued_at" ["Issued_At"]) (.tail _ (.head _)) rfl,
    htoken.text?_eq (f := .text "expires" ["Expires"]) (.tail _ (.tail _ (.head _))) rfl,
    Alike.map_eq htenant fun _ _ => tenant_eq, Alike.map_eq huser fun _ _ => user_eq⟩

theorem readsMembers : ReadsMembers bodyShapes schema decode :=
  .of_nests bodyShapes_nest schema_nests fun _ _ => ofFields_eq

end V2Response

namespace V3Response

def bodyShapes : Shapes
  | "token" => .record tokenSchema
  | _ => .text

theorem schema_nests : schema.Nests bodyShapes where
  unambiguous := schema_asks.unambiguous
  reads := List.forall_iff_forall_mem.1 (Field.reads_record rfl)

theorem tokenSchema_nests : tokenSchema.Nests bodyShapes where
  unambiguous := tokenSchema_asks.unambiguous
  reads := List.forall_iff_forall_mem.1 ⟨Field.reads_text rfl, Field.reads_text rfl⟩

theorem bodyShapes_nest : bodyShapes.Nest := by
  intro name s h
  unfold bodyShapes at h
  split at h <;> cases h
  exact tokenSchema_nests

theorem ofFields_eq (h : Alike bodyShapes schema found found') :
    ofFields found = ofFields found' := by
  have htoken := Alike.getD (h.record? bodyShapes_nest
    (f := .record "token" [] tokenSchema) (.head _) rfl)
  rw [ofFields, ofFields, V3Response.mk.injEq]
  exact ⟨htoken.text?_eq (f := .text "issued_at" []) (.head _) rfl,
    htoken.text?_eq (f := .text "expires_at" []) (.tail _ (.head _)) rfl⟩

theorem readsMembers : ReadsMembers bodyShapes schema decode :=
  .of_nests bodyShapes_nest schema_nests fun _ _ => ofFields_eq

end V3Response

/-- The letters that start a word in capitals; words are joined by underscores. -/
def capitals : Bool → List Char → List Char
  | _, [] => []
  | start, c :: cs => (if start then c.toUpper else c) :: capitals (c == '_') cs

def capitalised (name : String) : String := String.ofList (capitals true name.toList)

namespace Strategy

/-- The bodies of responses say the same. -/
def Rearranged : Strategy → Draft → Draft → Prop
  | v2Token | v2Password => Json.Rearranged V2Response.bodyShapes V2Response.schema
  | v3Password => Json.Rearranged V3Response.bodyShapes V3Response.schema

theorem tokenIn_rearranged (s : Strategy) {r r' : Http.Response} (hheaders : r'.headers = r.headers)
    (h : Holds r.text d) (h' : Holds r'.text d') (hsame : s.Rearranged d d') (t : Token) :
    s.tokenIn r = .ok t ↔ s.tokenIn r' = .ok t := by
  cases s with
  | v2Token | v2Password =>
    have hdecode := V2Response.readsMembers.rearranged _ _ _ _ h h' hsame
    simp only [tokenIn, bind_eq_ok_iff, hdecode]
  | v3Password =>
    have hdecode := V3Response.readsMembers.rearranged _ _ _ _ h h' hsame
    simp only [tokenIn, bind_eq_ok_iff, hdecode, hheaders]

theorem judge_rearranged (s : Strategy) {r r' : Http.Response}
    (hcomplete : r'.isComplete = r.isComplete) (hstatus : r'.status = r.status)
    (hheaders : r'.headers = r.headers) (h : Holds r.text d) (h' : Holds r'.text d')
    (hsame : s.Rearranged d d') (t : Token) :
    s.judge r = .ok t ↔ s.judge r' = .ok t := by
  rw [judge, judge, hcomplete, hstatus]
  split
  · rfl
  · split
    · exact s.tokenIn_rearranged hheaders h h' hsame t
    · simp

end Strategy

/-- A body is accepted exactly if it has the form of a response, and the response is then what its
members say; whatever response there is, some body says it. The members of a body's objects may stand in
any order and, in v2, go by either spelling; members that mean nothing are skipped, and null stands for
an optional member that is missing. The body is accepted or not all the same, with the same response and
the same token. A field that is given twice, or not as what it is, leads to rejection wherever it stands.
Keys have a capitalised spelling in v2; in v3 the capitalised spelling belongs to no field. -/
theorem bodies_read_by_members :
    (ReadsMembers V2Response.bodyShapes V2Response.schema V2Response.decode ∧
      (∀ body d, Holds body d →
        ((∃ v, V2Response.decode body = .ok v) ↔ IsRecord V2Response.form d)) ∧
      (∀ body d access token v, Holds body d → V2Response.Reaches d access token →
        V2Response.decode body = .ok v → v.Describes access token) ∧
      (∀ v, V2Response.decode v.toJson.render = .ok v) ∧
      ∀ s ∈ [V2Response.schema, V2Response.accessSchema, V2Response.tokenSchema,
          V2Response.tenantSchema, V2Response.userSchema],
        ∀ f ∈ s.fields, f.keys = [f.name, capitalised f.name]) ∧
    (ReadsMembers V3Response.bodyShapes V3Response.schema V3Response.decode ∧
      (∀ body d, Holds body d →
        ((∃ v, V3Response.decode body = .ok v) ↔ IsRecord V3Response.form d)) ∧
      (∀ body d token v, Holds body d → V3Response.Reaches d token →
        V3Response.decode body = .ok v → v.Describes token) ∧
      (∀ v, V3Response.decode v.toJson.render = .ok v) ∧
      ∀ s ∈ [V3Response.schema, V3Response.tokenSchema], ∀ f ∈ s.fields, f.keys = [f.name] ∧
        ∀ g ∈ s.fields, capitalised f.name ∉ g.keys) ∧
    ∀ (s : Strategy) (r r' : Http.Response) (d d' : Draft), r'.isComplete = r.isComplete →
      r'.status = r.status → r'.headers = r.headers → Holds r.text d → Holds r'.text d' →
        s.Rearranged d d' → ∀ t, s.judge r = .ok t ↔ s.judge r' = .ok t := by
  refine ⟨⟨V2Response.readsMembers, fun _ _ => V2Response.decode_isOk_iff,
      fun _ _ _ _ _ => V2Response.decode_describes, V2Response.decode_render, by decide⟩,
    ⟨V3Response.readsMembers, fun _ _ => V3Response.decode_isOk_iff,
      fun _ _ _ _ => V3Response.decode_describes, V3Response.decode_render, by decide⟩,
    fun s r r' d d' hcomplete hstatus hheaders h h' hsame =>
      s.judge_rearranged hcomplete hstatus hheaders h h' hsame⟩

end TokenKeeper
