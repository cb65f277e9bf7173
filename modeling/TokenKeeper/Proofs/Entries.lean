import TokenKeeper.Config.Decode
import TokenKeeper.Proofs.Outcome
import TokenKeeper.Proofs.Records

/-!
# What the entries of a TLS section say

A TLS section is read in two passes: the switch for v3 at once, and everything else is kept as it is
found and gathered when the section is complete. What comes of it is what the document says under each
name, text by text and flag by flag (`TlsSection.read_yields_ofNode`); a path that is left out, null or
empty says the empty text (`Document.textAt`). The first pass keeps of every name what its entries hold,
entry by entry (`Place.readEntries_yields_of_step`); in the second the entry of a name decides its part
of the files, and no other entry does (`TlsSection.Decides`).
-/

namespace TokenKeeper.Yaml

namespace Yields
variable {α : Type} {r : Read α}

theorem and {P Q : α → Prop} (hP : Yields P r) (hQ : Yields Q r) : Yields (fun a => P a ∧ Q a) r :=
  fun n a n' h => ⟨hP n a n' h, hQ n a n' h⟩

theorem imp {P Q : α → Prop} (hP : Yields P r) (h : ∀ a, P a → Q a) : Yields Q r :=
  fun n a n' hrun => h a (hP n a n' hrun)

end Yields

theorem integer?_ne_flag {s : List Char} {b : Bool} : integer? s ≠ some (.flag b) := by
  unfold integer?
  dsimp only
  generalize ((natural? largest64 s).map Int.ofNat).or _ = narrow
  generalize ((natural? largest128 s).map Int.ofNat).or _ = wide
  cases narrow <;> cases wide <;> exact fun h => nomatch h

theorem float?_ne_flag {s : List Char} {b : Bool} : float? s ≠ some (.flag b) := by
  unfold float?
  dsimp only
  split
  · exact fun h => nomatch h
  · split
    · exact fun h => nomatch h
    · split
      · exact fun h => nomatch h
      · split
        · exact fun h => nomatch h
        · generalize decimal? _ = x
          cases x <;> exact fun h => nomatch h

theorem flag?_of_ofPlain {s : List Char} {b : Bool} (h : Found.ofPlain s = .flag b) :
    flag? s = some b := by
  unfold Found.ofPlain at h
  split at h
  · cases h
  · split at h
    · next hflag =>
      cases h
      exact hflag
    · split at h
      · next hinteger => exact absurd (h ▸ hinteger) integer?_ne_flag
      · split at h
        · cases h
        · cases hfloat : float? s with
          | none =>
            rw [hfloat] at h
            cases h
          | some found =>
            rw [hfloat, Option.getD_some] at h
            exact absurd (h ▸ hfloat) float?_ne_flag

theorem elim_eq_ok {α ε : Type} {x : Option α} {e : ε} {a : α}
    (h : x.elim (.error e) .ok = (.ok a : Except ε α)) : x = some a := by
  cases x with
  | none => cases h
  | some b =>
    cases h
    rfl

theorem flag?_of_ofScalar {tag : Option (List Char)} {s : List Char} {style : Style} {b : Bool}
    (h : Found.ofScalar tag s style = .ok (.flag b)) : flag? s = some b := by
  unfold Found.ofScalar at h
  split at h
  · split at h
    · exact flag?_of_ofPlain (Except.ok.inj h)
    · cases h
  -- a tag asks for a kind of its own, and only the one of truth values gives one
  · split at h
    · obtain ⟨b', hb', ⟨⟩⟩ := Option.map_eq_some_iff.1 (elim_eq_ok h)
      exact hb'
    · split at h
      · exact absurd (elim_eq_ok h) integer?_ne_flag
      · split at h
        · exact absurd (elim_eq_ok h) float?_ne_flag
        · split at h
          · split at h <;> cases h
          · split at h
            · exact flag?_of_ofPlain (Except.ok.inj h)
            · cases h

namespace Node

/-- What the node holds, read without expecting anything. -/
def held? : Node → Option Found
  | .scalar tag text style => (Found.ofScalar tag text style).toOption
  | .sequence .. => some .sequence
  | .mapping .. => some .mapping
  | .void => some .null
  | .alias _ | .missing => none

/-- The truth value that a scalar spells, whatever its tag. -/
def spelled? : Node → Option Bool
  | .scalar _ text _ => flag? text
  | _ => none

theorem spelled?_of_held? {n : Node} {b : Bool} (h : n.held? = some (.flag b)) :
    n.spelled? = some b := by
  cases n with
  | scalar tag text style => exact flag?_of_ofScalar (ok_of_toOption h)
  | _ => cases h

/-- Whether the node stands for nothing where something may be left out. -/
def isNothing : Node → Bool
  | .scalar none text .plain => text.isEmpty || isNull text
  | .scalar (some tag) text .plain => tag == coreTag "null" && isNull text
  | .void => true
  | _ => false

end Node

namespace Document
variable {d : Document}

/-- The node under a name. -/
def under? (d : Document) (name : String) (n : Node) : Option Node :=
  (d.values name n).head?.map d.behind

/-- The text under a name; without one, or with null, it is empty. -/
def textAt (d : Document) (name : String) (n : Node) : String :=
  match (d.under? name n).bind Node.held? with
  | some (.text s) => String.ofList s
  | _ => ""

/-- The truth value under a name, or what counts without an entry. -/
def flagAt (d : Document) (name : String) (absent : Bool) (n : Node) : Bool :=
  ((d.under? name n).bind Node.spelled?).getD absent

def entries (d : Document) (n : Node) : List (Node × Node) :=
  match d.behind n with
  | .mapping _ entries => entries
  | _ => []

/-- The values behind the keys of that name in a row of entries. -/
def named (d : Document) (name : String) (entries : List (Node × Node)) : List Node :=
  (entries.filter fun e => d.isNamed name e.1).map Prod.snd

theorem values_eq (d : Document) (name : String) (n : Node) :
    d.values name n = d.named name (d.entries n) := by
  unfold values entries
  generalize d.behind n = m
  cases m <;> rfl

theorem named_append (d : Document) (name : String) (first second : List (Node × Node)) :
    d.named name (first ++ second) = d.named name first ++ d.named name second := by
  simp only [named, List.filter_append, List.map_append]

theorem named_singleton (d : Document) (name : String) (key value : Node) :
    d.named name [(key, value)] = if d.isNamed name key then [value] else [] := by
  cases h : d.isNamed name key <;> simp [named, h]

theorem isNamed_eq {name : List Char} {tag : Option (List Char)} {style : Style} {key : Node}
    (h : d.behind key = .scalar tag name style) (other : String) :
    d.isNamed other key = (name == other.toList) := by
  simp only [isNamed, h]

end Document

namespace Place

theorem readAny_yields (d : Document) (depth : Nat) (path : Path) (n : Node) :
    Yields (fun found => (d.behind n).held? = some found) (readAny d depth path n) := by
  unfold readAny
  refine (follow_yields ⟨d, path, depth⟩ n).bind ?_
  rintro _ rfl
  dsimp only
  generalize d.behind n = m
  cases m with
  | scalar tag text style =>
    dsimp only [Node.held?]
    split
    · exact .fail _
    · split
      · exact .fail _
      · next h => exact .ret (by rw [h]; rfl)
      · exact .fail _
  | «alias» => exact .fail _
  | missing => exact .fail _
  | void => exact .ret rfl
  -- a collection is known by its kind, whatever is read of its parts
  | sequence | mapping =>
    dsimp only
    split
    · exact .fail _
    · split
      · exact .fail _
      · exact .andThen _ fun _ => .ret rfl

theorem readOption_yields_of {α : Type} {P : α → Prop} (p : Place) {read : Node → Read α} {n : Node}
    (hread : Yields P (read (p.document.behind n))) :
    Yields (fun found => found.isNone = (p.document.behind n).isNothing ∧ ∀ a, found = some a → P a)
      (p.readOption read n) := by
  refine (p.follow_yields n).bind ?_
  rintro _ rfl
  generalize p.document.behind n = m at hread
  have hnone (hm : m.isNothing = true) :
      Yields (fun found => found.isNone = m.isNothing ∧ ∀ a, found = some a → P a) (pure none) :=
    .ret ⟨hm.symm, fun _ h => nomatch h⟩
  have hsome (hm : m.isNothing = false) :
      Yields (fun found => found.isNone = m.isNothing ∧ ∀ a, found = some a → P a)
        (some <$> read m) :=
    hread.map fun a ha => ⟨hm.symm, fun b hb => Option.some.inj hb ▸ ha⟩
  cases m with
  | scalar tag text style =>
    cases style with
    | plain =>
      cases tag with
      | none =>
        dsimp only
        split
        · next h => exact hnone h
        · next h => exact hsome (Bool.eq_false_iff.2 h)
      | some tag =>
        dsimp only
        split
        · next htag =>
          have hother : (tag == coreTag "null") = false := by simpa using htag
          exact hsome (by rw [Node.isNothing, hother, Bool.false_and])
        · next htag =>
          have hnull : (tag == coreTag "null") = true := by simpa using htag
          split
          · next h => exact hnone (by rw [Node.isNothing, hnull, h, Bool.and_self])
          -- a tag that asks for null in vain
          · exact .fail _
    | _ => cases tag <;> exact hsome rfl
  | missing => exact .fail _
  | void => exact hnone rfl
  | _ => exact hsome rfl

variable {σ : Type} {fields : List (RecordField σ)} {other : Place → List Char → Node → σ → Read σ}
  {I : List (Node × Node) → σ → Prop}

/-- What holds of the entries read so far goes on to hold if every entry keeps it, whether it is a
field's or another's. -/
theorem readEntries_yields_of_step (p : Place)
    (hfield : ∀ f ∈ fields, ∀ read key value s, I read s → p.document.isNamed f.name key = true →
      Yields (I (read ++ [(key, value)])) (f.read (p.value key) value s))
    (hother : ∀ read key value name tag style s, I read s →
      p.document.behind key = .scalar tag name style →
      Yields (I (read ++ [(key, value)])) (other (p.value key) name value s))
    (read entries : List (Node × Node)) (seen : List String) {s : σ} (hs : I read s) :
    Yields (I (read ++ entries)) (p.readEntries fields other entries seen s) := by
  induction entries generalizing read seen s with
  | nil =>
    rw [List.append_nil]
    unfold readEntries
    split
    · exact p.refuse_yields _
    · exact .ret hs
  | cons entry rest ih =>
    obtain ⟨key, value⟩ := entry
    rw [List.append_cons]
    unfold readEntries
    refine (p.readTextAs_yields _ key).bind ?_
    rintro name ⟨tag, style, hname⟩
    dsimp only
    split
    · next f hf =>
      split
      · exact p.refuse_yields _
      · have hnamed : p.document.isNamed f.name key = true := by
          have hfound : f.name = String.ofList name := by simpa using List.find?_some hf
          rw [Document.isNamed_eq hname, hfound, String.toList_ofList, beq_self_eq_true]
        exact (hfield f (List.mem_of_find?_eq_some hf) read key value s hs hnamed).bind
          fun s hs => ih _ _ hs
    · exact (hother read key value name tag style s hs hname).bind fun s hs => ih _ _ hs

theorem readRecord_yields_of_step (p : Place) (title : String)
    (hfield : ∀ q : Place, q.document = p.document → ∀ f ∈ fields, ∀ read key value s, I read s →
      q.document.isNamed f.name key = true →
      Yields (I (read ++ [(key, value)])) (f.read (q.value key) value s))
    (hother : ∀ q : Place, q.document = p.document → ∀ read key value name tag style s, I read s →
      q.document.behind key = .scalar tag name style →
      Yields (I (read ++ [(key, value)])) (other (q.value key) name value s))
    (n : Node) {s : σ} (hs : I [] s) :
    Yields (I (p.document.entries n)) (p.readRecord title fields other s n) := by
  have hempty : Yields (I []) (p.readEntries fields other [] [] s) :=
    p.readEntries_yields_of_step (hfield p rfl) (hother p rfl) [] [] [] hs
  refine (p.follow_yields n).bind ?_
  rintro _ rfl
  split
  · next tag entries hn =>
    have hentries : p.document.entries n = entries := by simp only [Document.entries, hn]
    rw [hentries]
    refine p.enter_yields.bind fun inside hinside => ?_
    exact inside.readEntries_yields_of_step (hfield inside hinside) (hother inside hinside) []
      entries [] hs
  · next hn => simpa only [Document.entries, hn] using hempty
  · next hn => simpa only [Document.entries, hn] using hempty
  · exact p.mismatch_yields _ _

/-- A part of a record is what the entry of its field makes of it; without one it stays as it was. -/
theorem readRecord_yields_of_field {α : Type} (p : Place) (title name : String) (part : σ → α)
    {f : RecordField σ} {P : Node → α → Prop} (hname : f.name = name)
    (hf : fields.find? (fun g => g.name == f.name) = some f)
    (hread : ∀ q value s, q.document = p.document →
      Yields (fun s => P (p.document.behind value) (part s)) (f.read q value s))
    (hfields : ∀ g ∈ fields, g.name ≠ f.name → ∀ R : α → Prop, g.Keeps fun s => R (part s))
    (hother : ∀ (R : α → Prop) q name n s, R (part s) →
      Yields (fun s => R (part s)) (other q name n s))
    (n : Node) (s : σ) :
    Yields (fun s' =>
        match p.document.under? name n with
        | some m => P m (part s')
        | none => part s' = part s)
      (p.readRecord title fields other s n) := by
  subst hname
  unfold Document.under?
  cases hvalues : p.document.values f.name n with
  | nil =>
    exact p.readRecord_yields_of_absent title (fun g hg hne => hfields g hg hne (· = part s))
      (hother (· = part s)) hvalues rfl
  | cons value rest =>
    exact p.readRecord_yields_of_entry title hf (fun q s hq => hread q value s hq)
      (fun g hg hne => hfields g hg hne (P _)) (hother (P _))
      (hvalues ▸ List.mem_cons_self) s

theorem readFlag_yields (p : Place) (n : Node) :
    Yields (fun b => (p.document.behind n).spelled? = some b) (p.readFlag n) := by
  refine (p.follow_yields n).bind ?_
  rintro _ rfl
  generalize p.document.behind n = m
  cases m with
  | scalar tag text style =>
    dsimp only
    split
    · next b hb =>
      refine .ret ?_
      split at hb
      · exact hb
      · cases hb
    · exact p.mismatch_yields _ _
  | _ => exact p.mismatch_yields _ _

end Place

end TokenKeeper.Yaml

namespace TokenKeeper
open Yaml

namespace TlsSection

/-! ## The first pass -/

/-- The values of a name that have been read are what is kept under it, one by one. -/
def Draft.Keeps (d : Document) (name : String) (entries : List (Node × Node)) (s : Draft) : Prop :=
  (d.named name entries).map (fun v => (d.behind v).held?) =
    (s.kept.filter fun e => e.1 == name.toList).map fun e => some e.2

namespace Draft.Keeps
variable {d : Document} {name : String} {read : List (Node × Node)} {key value : Node} {s : Draft}

/-- An entry of another name leaves what is kept under this one. -/
theorem skip (hs : s.Keeps d name read) (hkey : d.isNamed name key = false) :
    s.Keeps d name (read ++ [(key, value)]) := by
  unfold Draft.Keeps at hs ⊢
  rw [Document.named_append, Document.named_singleton, hkey, if_neg Bool.false_ne_true,
    List.append_nil, hs]

theorem keep {other : List Char} {tag : Option (List Char)} {style : Style} {found : Found}
    (hs : s.Keeps d name read) (hkey : d.behind key = .scalar tag other style)
    (hfound : (d.behind value).held? = some found) :
    Draft.Keeps d name (read ++ [(key, value)]) { s with kept := s.kept ++ [(other, found)] } := by
  unfold Draft.Keeps at hs ⊢
  rw [Document.named_append, Document.named_singleton, Document.isNamed_eq hkey, List.map_append, hs,
    List.filter_append, List.map_append]
  cases h : other == name.toList <;> simp [h, hfound]

end Draft.Keeps

theorem read_keeps (p : Place) {name : String} (hname : name ≠ "force_insecure_v3") (n : Node) :
    Yields (Draft.Keeps p.document name (p.document.entries n))
      (p.readRecord "TlsConfig" fields keep ⟨true, []⟩ n) := by
  refine p.readRecord_yields_of_step _ ?_ ?_ n rfl
  · intro q hq f hf read key value s hs hkey
    cases List.mem_singleton.1 hf
    obtain ⟨tag, style, hkey⟩ := Document.isNamed_iff.1 hkey
    have hother : p.document.isNamed name key = false := by
      rw [Document.isNamed_eq (hq ▸ hkey)]
      exact beq_eq_false_iff_ne.2 fun h => hname (String.toList_inj.1 h).symm
    -- the switch for v3 is read at once, and nothing is kept of it
    exact Yields.map (.any _) fun _ _ => hs.skip hother
  · intro q hq read key value other tag style s hs hkey
    have hinside : (q.value key).document = p.document := by rw [← hq]; cases key <;> rfl
    refine (Place.readAny_yields _ _ _ value).bind fun found hfound => .ret ?_
    exact hs.keep (hq ▸ hkey) (hinside ▸ hfound)

/-- What the draft keeps under a name is what the node under it holds. -/
theorem find?_of_keeps {d : Document} {name : String} {n : Node} {s : Draft}
    (hs : s.Keeps d name (d.entries n)) :
    (d.under? name n).map Node.held? =
      (s.kept.find? fun e => e.1 == name.toList).map fun e => some e.2 := by
  have h := congrArg List.head? hs
  rw [List.head?_map, List.head?_map, List.head?_filter, ← Document.values_eq] at h
  rw [← h, Document.under?, Option.map_map]
  rfl

/-! ## The second pass -/

/-- From `t` to `t'` no part changes but the one that goes by the name. -/
structure ChangesOnly (name : String) (t t' : TlsFiles) : Prop where
  caFile : name ≠ "ca_file" → t'.caFile = t.caFile
  keyFile : name ≠ "key_file" → t'.keyFile = t.keyFile
  certFile : name ≠ "cert_file" → t'.certFile = t.certFile
  insecure : name ≠ "insecure" → t'.insecure = t.insecure

theorem changesOnly_of_put {name : String} {put : Found → TlsFiles → Except Misfit TlsFiles}
    (hput : entry? name = some put) {found : Found} {t t' : TlsFiles} (h : put found t = .ok t') :
    ChangesOnly name t t' := by
  unfold entry? at hput
  split at hput
  · cases hput
    obtain ⟨v, -, rfl⟩ := map_eq_ok_iff.1 h
    exact ⟨absurd rfl, fun _ => rfl, fun _ => rfl, fun _ => rfl⟩
  · cases hput
    obtain ⟨v, -, rfl⟩ := map_eq_ok_iff.1 h
    exact ⟨fun _ => rfl, absurd rfl, fun _ => rfl, fun _ => rfl⟩
  · cases hput
    obtain ⟨v, -, rfl⟩ := map_eq_ok_iff.1 h
    exact ⟨fun _ => rfl, fun _ => rfl, absurd rfl, fun _ => rfl⟩
  · cases hput
    obtain ⟨v, -, rfl⟩ := map_eq_ok_iff.1 h
    exact ⟨fun _ => rfl, fun _ => rfl, fun _ => rfl, absurd rfl⟩
  · cases hput

/-- The part of the files is read from the entries of that name, and from no other. -/
structure Decides {α : Type} (name : String) (part : TlsFiles → α) (read : Found → Except Misfit α) :
    Prop where
  known : entry? name ≠ none
  own : ∀ {put found t t'}, entry? name = some put → put found t = .ok t' →
    read found = .ok (part t')
  other : ∀ {other t t'}, ChangesOnly other t t' → other ≠ name → part t' = part t

namespace Decides
variable {α : Type} {name : String} {part : TlsFiles → α} {read : Found → Except Misfit α}
  {kept : List (List Char × Found)} {seen : List String} {t t' : TlsFiles}

theorem part_of_seen (h : Decides name part read) (hgather : gather kept seen t = .ok t')
    (hseen : name ∈ seen) : part t' = part t := by
  induction kept generalizing seen t with
  | nil =>
    cases hgather
    rfl
  | cons entry rest ih =>
    obtain ⟨other, found⟩ := entry
    unfold gather at hgather
    dsimp only at hgather
    split at hgather
    · exact ih hgather hseen
    · next put hput =>
      split at hgather
      · cases hgather
      next hnew =>
      have hne : String.ofList other ≠ name := fun heq => hnew (List.contains_iff_mem.2 (heq ▸ hseen))
      obtain ⟨t₁, ht₁, hrest⟩ := bind_eq_ok_iff.1 hgather
      rw [ih hrest (List.mem_cons_of_mem _ hseen), h.other (changesOnly_of_put hput ht₁) hne]

theorem part_of_unseen (h : Decides name part read) (hgather : gather kept seen t = .ok t')
    (hseen : name ∉ seen) :
    match kept.find? fun e => e.1 == name.toList with
    | some e => read e.2 = .ok (part t')
    | none => part t' = part t := by
  induction kept generalizing seen t with
  | nil =>
    cases hgather
    rfl
  | cons entry rest ih =>
    obtain ⟨other, found⟩ := entry
    unfold gather at hgather
    dsimp only at hgather
    split at hgather
    · next hput =>
      have hne : other ≠ name.toList := by
        rintro rfl
        rw [String.ofList_toList] at hput
        exact h.known hput
      rw [List.find?_cons_of_neg (by simpa using hne)]
      exact ih hgather hseen
    · next put hput =>
      split at hgather
      · cases hgather
      obtain ⟨t₁, ht₁, hrest⟩ := bind_eq_ok_iff.1 hgather
      by_cases heq : String.ofList other = name
      · subst heq
        rw [List.find?_cons_of_pos (by simp)]
        dsimp only
        rw [h.part_of_seen hrest List.mem_cons_self]
        exact h.own hput ht₁
      · have hne : other ≠ name.toList := fun hother => heq (by rw [hother, String.ofList_toList])
        rw [List.find?_cons_of_neg (by simpa using hne), ← h.other (changesOnly_of_put hput ht₁) heq]
        refine ih hrest fun hmem => ?_
        rcases List.mem_cons.1 hmem with hmem | hmem
        · exact heq hmem.symm
        · exact hseen hmem

theorem of_entry (write : TlsFiles → α → TlsFiles)
    (hentry : entry? name = some fun found t => (read found).map (write t))
    (hpart : ∀ t v, part (write t v) = v)
    (hother : ∀ {other t t'}, ChangesOnly other t t' → other ≠ name → part t' = part t) :
    Decides name part read where
  known := by
    rw [hentry]
    exact Option.some_ne_none _
  own := by
    intro put found t t' hput h
    rw [hentry] at hput
    cases hput
    obtain ⟨v, hv, rfl⟩ := map_eq_ok_iff.1 h
    rw [hpart, hv]
  other := hother

end Decides

theorem decides_caFile : Decides "ca_file" TlsFiles.caFile path :=
  .of_entry (fun t v => { t with caFile := v }) rfl (fun _ _ => rfl) ChangesOnly.caFile

theorem decides_keyFile : Decides "key_file" TlsFiles.keyFile path :=
  .of_entry (fun t v => { t with keyFile := v }) rfl (fun _ _ => rfl) ChangesOnly.keyFile

theorem decides_certFile : Decides "cert_file" TlsFiles.certFile path :=
  .of_entry (fun t v => { t with certFile := v }) rfl (fun _ _ => rfl) ChangesOnly.certFile

theorem decides_insecure : Decides "insecure" TlsFiles.insecure flag :=
  .of_entry (fun t v => { t with insecure := v }) rfl (fun _ _ => rfl) ChangesOnly.insecure

/-! ## The section -/

section
variable {d : Document} {name : String} {n : Node} {s : Draft} {t t' : TlsFiles}

/-- A part of the files is read from what the node under its name holds. -/
theorem Decides.part_eq {α : Type} {part : TlsFiles → α} {read : Found → Except Misfit α}
    (h : Decides name part read) (hs : s.Keeps d name (d.entries n))
    (hgather : gather s.kept [] t = .ok t') :
    match d.under? name n with
    | some m => ∃ found, m.held? = some found ∧ read found = .ok (part t')
    | none => part t' = part t := by
  have hkept := find?_of_keeps hs
  have hpart := h.part_of_unseen hgather List.not_mem_nil
  generalize s.kept.find? (fun e => e.1 == name.toList) = e at hkept hpart
  cases e with
  | none =>
    rw [Option.map_none, Option.map_eq_none_iff] at hkept
    rw [hkept]
    exact hpart
  | some e =>
    obtain ⟨m, hm, hheld⟩ := Option.map_eq_some_iff.1 hkept
    rw [hm]
    exact ⟨e.2, hheld, hpart⟩

theorem path_of_gather {part : TlsFiles → Option String} (h : Decides name part path)
    (hs : s.Keeps d name (d.entries n)) (hgather : gather s.kept [] t = .ok t')
    (hnone : part t = none) : part t' = TlsFiles.path? (d.textAt name n) := by
  have hpart := h.part_eq hs hgather
  unfold Document.textAt
  cases hunder : d.under? name n with
  | none =>
    rw [hunder] at hpart
    exact hpart.trans hnone
  | some m =>
    rw [hunder] at hpart
    obtain ⟨found, hheld, hread⟩ := hpart
    rw [Option.bind_some, hheld]
    unfold path at hread
    split at hread
    · exact (Except.ok.inj hread).symm
    · exact (Except.ok.inj hread).symm
    · cases hread

theorem flag_of_gather {part : TlsFiles → Bool} (h : Decides name part flag)
    (hs : s.Keeps d name (d.entries n)) (hgather : gather s.kept [] t = .ok t') :
    part t' = d.flagAt name (part t) n := by
  have hpart := h.part_eq hs hgather
  unfold Document.flagAt
  cases hunder : d.under? name n with
  | none =>
    rw [hunder] at hpart
    exact hpart
  | some m =>
    rw [hunder] at hpart
    obtain ⟨found, hheld, hread⟩ := hpart
    unfold flag at hread
    split at hread
    · rw [Option.bind_some, Node.spelled?_of_held? hheld]
      exact (Except.ok.inj hread).symm
    · cases hread

end

/-- The section that a node stands for, by what it says under each name. -/
def ofNode (d : Document) (n : Node) : TlsSection where
  files := .ofPaths (d.textAt "ca_file" n) (d.textAt "key_file" n) (d.textAt "cert_file" n)
    (d.flagAt "insecure" false n)
  forceInsecureV3 := d.flagAt "force_insecure_v3" true n

theorem forceInsecureV3_yields (p : Place) (n : Node) :
    Yields (fun s => s.forceInsecureV3 = p.document.flagAt "force_insecure_v3" true n)
      (p.readRecord "TlsConfig" fields keep ⟨true, []⟩ n) := by
  refine (p.readRecord_yields_of_field "TlsConfig" "force_insecure_v3" Draft.forceInsecureV3
    (f := .of "force_insecure_v3" false Place.readFlag fun s v => { s with forceInsecureV3 := v })
    (P := fun m b => m.spelled? = some b) rfl rfl ?_ ?_ ?_ n ⟨true, []⟩).imp ?_
  · intro q value s hq
    exact (q.readFlag_yields value).map fun b hb => hq ▸ hb
  · intro g hg hne
    cases List.mem_singleton.1 hg
    exact absurd rfl hne
  · exact fun R p name n s hs => .andThen _ fun _ => .ret hs
  · intro s hs
    unfold Document.flagAt
    cases hunder : p.document.under? "force_insecure_v3" n with
    | none =>
      rw [hunder] at hs
      exact hs
    | some m =>
      rw [hunder] at hs
      rw [Option.bind_some, hs, Option.getD_some]

theorem read_yields_ofNode (p : Place) (n : Node) :
    Yields (· = ofNode p.document n) (TlsSection.read p n) := by
  have hkeeps (name : String) (hname : name ≠ "force_insecure_v3") := read_keeps p hname n
  refine (((hkeeps "ca_file" (by decide)).and (hkeeps "key_file" (by decide))).and
    (((hkeeps "cert_file" (by decide)).and (hkeeps "insecure" (by decide))).and
    (forceInsecureV3_yields p n))).bind ?_
  rintro s ⟨⟨hca, hkey⟩, ⟨hcert, hinsecure⟩, hforce⟩
  split
  · next t ht =>
    refine .ret ?_
    obtain ⟨caFile, keyFile, certFile, insecure⟩ := t
    have hca' : caFile = _ := path_of_gather decides_caFile hca ht rfl
    have hkey' : keyFile = _ := path_of_gather decides_keyFile hkey ht rfl
    have hcert' : certFile = _ := path_of_gather decides_certFile hcert ht rfl
    have hinsecure' : insecure = _ := flag_of_gather decides_insecure hinsecure ht
    rw [hca', hkey', hcert', hinsecure', hforce]
    rfl
  · exact p.refuse_yields _

end TlsSection

namespace ServiceConfig

/-- The node of the TLS section; a section that is null is none. -/
def tlsNode? (d : Document) : Option Node :=
  (d.under? "tls" d.root).filter fun n => !n.isNothing

theorem read_yields_tls (d : Document) (path : Path) (depth : Nat) :
    Yields (fun c => c.tls = (tlsNode? d).map (TlsSection.ofNode d))
      (ServiceConfig.read ⟨d, path, depth⟩ d.root) := by
  refine (Place.readRecord_yields_of_field ⟨d, path, depth⟩ "ServiceConfig" "tls" ServiceConfig.tls
    (f := .of "tls" false (fun p => p.readOption (TlsSection.read p)) fun c v => { c with tls := v })
    (P := fun m tls => tls.isNone = m.isNothing ∧ ∀ a, tls = some a → a = TlsSection.ofNode d m)
    rfl rfl ?_ ?_ ?_ d.root _).imp ?_
  · intro q value s hq
    subst hq
    exact Yields.map (q.readOption_yields_of (TlsSection.read_yields_ofNode q _)) fun _ htls => htls
  · intro g hg hne R
    simp only [fields, List.mem_cons, List.not_mem_nil, or_false] at hg
    rcases hg with rfl | rfl | rfl
    · exact RecordField.of_keeps_any fun _ _ hs => hs
    · exact RecordField.of_keeps_any fun _ _ hs => hs
    · exact absurd rfl hne
  · exact fun R q name n s hs => q.skipOther_yields name n s hs
  · intro c hc
    unfold tlsNode?
    cases hunder : d.under? "tls" d.root with
    | none =>
      rw [hunder] at hc
      exact hc
    | some m =>
      rw [hunder] at hc
      obtain ⟨hnone, hsome⟩ := hc
      cases htls : c.tls with
      | none =>
        have hm : m.isNothing = true := by rw [← hnone, htls, Option.isNone_none]
        rw [Option.filter_some, hm]
        rfl
      | some tls =>
        have hm : m.isNothing = false := by rw [← hnone, htls, Option.isNone_some]
        rw [Option.filter_some, hm, hsome tls htls]
        rfl

end ServiceConfig

end TokenKeeper
