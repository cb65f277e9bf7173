import Mathlib.Tactic.SplitIfs
import TokenKeeper.Json.Draft
import TokenKeeper.Proofs.Outcome

/-!
# What is written is read

The compact text of a value is read as that value, whatever its strings hold: an escape stands exactly
where reading would otherwise stop or go astray, so behind each character's spelling the reader stands
before the next one (`Json.pieces_escapeChar`). Values follow by induction on the tree, with the rest
of the text left as it is (`Json.readValue_text`), and so no two values have the same text
(`Json.render_inj`). A value that holds no number has one draft (`Json.Draft.toJson_eq_object_iff` and
those before it). Numbers are left out: they keep whatever text they are given.
-/

namespace TokenKeeper.Json

/-! ## Strings -/

/-- The piece stands for the character. -/
def Spells (p : Piece) (c : Char) : Prop :=
  ∀ stop ps, characters stop (p :: ps) = (characters stop ps).map (c :: ·)

theorem spells_char (c : Char) : Spells (.char c) c := fun _ _ => rfl

theorem spells_unit {c : Char} (h : c.toNat < 32) : Spells (.unit c.toNat) c := by
  intro stop ps
  have hlow : isLowHalf c.toNat = false := by
    simp only [isLowHalf, Bool.and_eq_false_iff, decide_eq_false_iff_not]; omega
  have hhigh : isHighHalf c.toNat = false := by
    simp only [isHighHalf, Bool.and_eq_false_iff, decide_eq_false_iff_not]; omega
  rw [characters.eq_def]
  simp only [hlow, hhigh, Bool.false_eq_true, ↓reduceIte, Char.ofNat_toNat]

theorem hexUnit_low : ∀ n < 32, ∀ rest : List Char,
    hexUnit ('0' :: '0' :: hexDigit (n / 16) :: hexDigit (n % 16) :: rest) = .ok (n, rest) := by
  have hdigit : ∀ n < 16, hexValue? (hexDigit n) = some n := by decide
  intro n hn rest
  have hzero : hexValue? '0' = some 0 := by decide
  simp only [hexUnit, hzero, hdigit (n / 16) (by omega), hdigit (n % 16) (by omega)]
  congr 2
  omega

theorem pieces_escaped (n : Nat) {e c : Char} (he : e ≠ 'u') (hc : simpleEscape? e = some c)
    (rest : List Char) :
    pieces (n + 1) ('\\' :: e :: rest) = (.char c :: (pieces n rest).1, (pieces n rest).2) := by
  rw [pieces]
  simp [hc, he]

/-- A character's spelling is read as one piece that stands for it. -/
theorem pieces_escapeChar (n : Nat) (c : Char) (rest : List Char) :
    ∃ p, Spells p c ∧
      pieces (n + 1) (escapeChar c ++ rest) = (p :: (pieces n rest).1, (pieces n rest).2) := by
  unfold escapeChar
  simp only [beq_iff_eq]
  split_ifs with hquote hslash hn hr ht hb hf hlow
  · exact ⟨_, spells_char c, pieces_escaped n (by decide) (by subst hquote; rfl) rest⟩
  · exact ⟨_, spells_char c, pieces_escaped n (by decide) (by subst hslash; rfl) rest⟩
  · exact ⟨_, spells_char c, pieces_escaped n (by decide) (by subst hn; rfl) rest⟩
  · exact ⟨_, spells_char c, pieces_escaped n (by decide) (by subst hr; rfl) rest⟩
  · exact ⟨_, spells_char c, pieces_escaped n (by decide) (by subst ht; rfl) rest⟩
  · have hc : c = '\x08' := Char.toNat_inj.1 hb
    exact ⟨_, spells_char c, pieces_escaped n (by decide) (by subst hc; rfl) rest⟩
  · have hc : c = '\x0c' := Char.toNat_inj.1 hf
    exact ⟨_, spells_char c, pieces_escaped n (by decide) (by subst hc; rfl) rest⟩
  · refine ⟨_, spells_unit hlow, ?_⟩
    simp [pieces, hexUnit_low _ hlow]
  · refine ⟨_, spells_char c, ?_⟩
    simp [pieces, hquote, hslash, hlow]

/-- A string's spelling up to its closing quote is read in as many pieces as it has characters. -/
theorem pieces_stringText (cs rest : List Char) (n : Nat) (h : cs.length < n) :
    ∃ ps, characters none ps = .ok cs ∧
      pieces n (cs.flatMap escapeChar ++ '"' :: rest) = (ps, .ok rest) := by
  induction cs generalizing n with
  | nil =>
    obtain ⟨n, rfl⟩ := Nat.exists_eq_succ_of_ne_zero (Nat.ne_of_gt h)
    exact ⟨[], rfl, by simp [pieces]⟩
  | cons c cs ih =>
    obtain ⟨n, rfl⟩ := Nat.exists_eq_succ_of_ne_zero (Nat.ne_of_gt (Nat.lt_of_le_of_lt (Nat.zero_le _) h))
    obtain ⟨ps, hps, hpieces⟩ := ih n (Nat.lt_of_succ_lt_succ h)
    obtain ⟨p, hp, hstep⟩ := pieces_escapeChar n c (cs.flatMap escapeChar ++ '"' :: rest)
    refine ⟨p :: ps, by rw [hp none ps, hps]; rfl, ?_⟩
    rw [List.flatMap_cons, List.append_assoc, hstep, hpieces]

theorem escapeChar_length_pos (c : Char) : 0 < (escapeChar c).length := by
  unfold escapeChar
  split_ifs <;> exact Nat.succ_pos _

theorem length_le_flatMap (cs : List Char) : cs.length ≤ (cs.flatMap escapeChar).length := by
  induction cs with
  | nil => exact Nat.le_refl _
  | cons c cs ih =>
    have := escapeChar_length_pos c
    rw [List.flatMap_cons, List.length_append, List.length_cons]
    omega

theorem readString_stringText (s : String) (rest : List Char) :
    readString (s.toList.flatMap escapeChar ++ '"' :: rest) = .ok (.ok s, rest) := by
  have hlen : s.toList.length < (s.toList.flatMap escapeChar ++ '"' :: rest).length + 1 := by
    have := length_le_flatMap s.toList
    rw [List.length_append]
    omega
  obtain ⟨ps, hps, hpieces⟩ := pieces_stringText s.toList rest _ hlen
  unfold readString
  rw [hpieces]
  dsimp only
  rw [hps]
  simp [Except.map]

/-! ## Values -/

mutual

/-- No number occurs in the value. -/
def Numberless : Json → Prop
  | .number _ => False
  | .array vs => ItemsNumberless vs
  | .object ms => MembersNumberless ms
  | _ => True

def ItemsNumberless : List Json → Prop
  | [] => True
  | v :: vs => Numberless v ∧ ItemsNumberless vs

def MembersNumberless : List (String × Json) → Prop
  | [] => True
  | (_, v) :: ms => Numberless v ∧ MembersNumberless ms

end

/-- The text of a value begins with a character that is no space and ends nothing. -/
theorem text_head {v : Json} (h : Numberless v) :
    ∃ c cs, text v = c :: cs ∧ isSpace c = false ∧ c ≠ ']' := by
  cases v with
  | null => exact ⟨_, _, rfl, rfl, by decide⟩
  | bool b => cases b <;> exact ⟨_, _, rfl, rfl, by decide⟩
  | number _ => exact h.elim
  | string s => exact ⟨_, _, rfl, rfl, by decide⟩
  | array vs => cases vs <;> exact ⟨_, _, rfl, rfl, by decide⟩
  | object ms =>
    rcases ms with _ | ⟨⟨k, v⟩, ms⟩ <;> exact ⟨_, _, rfl, rfl, by decide⟩

theorem dropWhile_isSpace {c : Char} (h : isSpace c = false) (cs : List Char) :
    (c :: cs).dropWhile isSpace = c :: cs :=
  List.dropWhile_cons_of_neg (by simp [h])

theorem readValue_opening_bracket (n : Nat) {c : Char} (hc : isSpace c = false) (hne : c ≠ ']')
    (cs : List Char) :
    readValue (n + 1) ('[' :: c :: cs) =
      (.array (readItems n (c :: cs)).1 (readItems n (c :: cs)).2.1, (readItems n (c :: cs)).2.2) := by
  rw [readValue, dropWhile_isSpace (by rfl)]
  simp [dropWhile_isSpace hc, hne]

theorem readValue_opening_brace (n : Nat) (cs : List Char) :
    readValue (n + 1) ('{' :: '"' :: cs) =
      (.object (readMembers n ('"' :: cs)).1 (readMembers n ('"' :: cs)).2.1,
        (readMembers n ('"' :: cs)).2.2) := by
  rw [readValue, dropWhile_isSpace (by rfl)]
  simp [dropWhile_isSpace (c := '"') (by rfl)]

theorem readItems_last {n : Nat} {cs rest : List Char} {d : Draft}
    (h : readValue n cs = (d, some (']' :: rest))) :
    readItems (n + 1) cs = ([d], none, some rest) := by
  rw [readItems, h]
  simp [dropWhile_isSpace (c := ']') (by rfl)]

theorem readItems_more {n : Nat} {cs rest : List Char} {d : Draft} {c : Char}
    (h : readValue n cs = (d, some (',' :: c :: rest))) (hc : isSpace c = false) (hne : c ≠ ']') :
    readItems (n + 1) cs =
      (d :: (readItems n (c :: rest)).1, (readItems n (c :: rest)).2.1,
        (readItems n (c :: rest)).2.2) := by
  rw [readItems, h]
  simp [dropWhile_isSpace (c := ',') (by rfl), dropWhile_isSpace hc, hne]

theorem readMembers_last {n : Nat} (key : String) {cs rest : List Char} {d : Draft}
    (h : readValue n cs = (d, some ('}' :: rest))) :
    readMembers (n + 1) (stringText key ++ ':' :: cs) = ([(.ok key, d)], none, some rest) := by
  have htext : stringText key ++ ':' :: cs =
      '"' :: (key.toList.flatMap escapeChar ++ '"' :: ':' :: cs) := by
    simp [stringText]
  rw [htext, readMembers, readString_stringText]
  simp [dropWhile_isSpace (c := ':') (by rfl), dropWhile_isSpace (c := '}') (by rfl), h]

theorem readMembers_more {n : Nat} (key : String) {cs rest : List Char} {d : Draft}
    (h : readValue n cs = (d, some (',' :: '"' :: rest))) :
    readMembers (n + 1) (stringText key ++ ':' :: cs) =
      ((.ok key, d) :: (readMembers n ('"' :: rest)).1, (readMembers n ('"' :: rest)).2.1,
        (readMembers n ('"' :: rest)).2.2) := by
  have htext : stringText key ++ ':' :: cs =
      '"' :: (key.toList.flatMap escapeChar ++ '"' :: ':' :: cs) := by
    simp [stringText]
  rw [htext, readMembers, readString_stringText]
  simp [dropWhile_isSpace (c := ':') (by rfl), dropWhile_isSpace (c := ',') (by rfl),
    dropWhile_isSpace (c := '"') (by rfl), h]

mutual

/-- A value's text is read as that value, and what follows it is left. -/
theorem readValue_text (v : Json) (hv : Numberless v) (n : Nat) (rest : List Char)
    (hn : (text v).length ≤ n) :
    ∃ d, readValue n (text v ++ rest) = (d, some rest) ∧ d.toJson = .ok v := by
  obtain ⟨n, rfl⟩ : ∃ m, n = m + 1 := by
    obtain ⟨c, cs, htext, -⟩ := text_head hv
    rw [htext, List.length_cons] at hn
    exact ⟨n - 1, by omega⟩
  match v, hv with
  | .null, _ => exact ⟨.null, rfl, rfl⟩
  | .bool true, _ => exact ⟨.bool true, rfl, rfl⟩
  | .bool false, _ => exact ⟨.bool false, rfl, rfl⟩
  | .string s, _ =>
    refine ⟨.string (.ok s), ?_, rfl⟩
    have htext : text (.string s) ++ rest =
        '"' :: (s.toList.flatMap escapeChar ++ '"' :: rest) := by
      simp [text, stringText]
    rw [htext, readValue, dropWhile_isSpace (by rfl)]
    simp [readString_stringText]
  | .array [], _ => exact ⟨.array [] none, rfl, rfl⟩
  | .array (v :: vs), hv =>
    have htext : text (.array (v :: vs)) = '[' :: (text v ++ itemsText vs) := by simp [text]
    rw [htext, List.length_cons] at hn
    obtain ⟨ds, hread, hds⟩ := readItems_text v vs hv.1 hv.2 n rest (Nat.le_of_succ_le_succ hn)
    obtain ⟨c, cs, hhead, hspace, hne⟩ := text_head hv.1
    refine ⟨.array ds none, ?_, ?_⟩
    · rw [htext, hhead]
      rw [hhead] at hread
      simp only [List.cons_append] at hread ⊢
      rw [readValue_opening_bracket n hspace hne, hread]
    · rw [Draft.toJson, hds]
      rfl
  | .object [], _ => exact ⟨.object [] none, rfl, rfl⟩
  | .object ((k, v) :: ms), hv =>
    have htext : text (.object ((k, v) :: ms)) =
        '{' :: (stringText k ++ ':' :: (text v ++ membersText ms)) := by simp [text]
    rw [htext, List.length_cons] at hn
    obtain ⟨ds, hread, hds⟩ := readMembers_text k v ms hv.1 hv.2 n rest (Nat.le_of_succ_le_succ hn)
    refine ⟨.object ds none, ?_, ?_⟩
    · rw [htext]
      simp only [stringText, List.cons_append] at hread ⊢
      rw [readValue_opening_brace, hread]
    · rw [Draft.toJson, hds]
      rfl
termination_by n

theorem readItems_text (v : Json) (vs : List Json) (hv : Numberless v) (hvs : ItemsNumberless vs)
    (n : Nat) (rest : List Char) (hn : (text v ++ itemsText vs).length ≤ n) :
    ∃ ds, readItems n (text v ++ itemsText vs ++ rest) = (ds, none, some rest) ∧
      Draft.toJsonItems ds = .ok (v :: vs) := by
  match vs, hvs with
  | [], _ =>
    simp only [itemsText, List.length_append, List.length_singleton] at hn
    obtain ⟨n, rfl⟩ : ∃ m, n = m + 1 := ⟨n - 1, by omega⟩
    obtain ⟨d, hread, hd⟩ := readValue_text v hv n (']' :: rest) (by omega)
    refine ⟨[d], ?_, ?_⟩
    · rw [itemsText, List.append_assoc]
      exact readItems_last hread
    · simp only [Draft.toJsonItems, hd]
      rfl
  | w :: ws, hvs =>
    simp only [itemsText, List.length_append, List.length_cons] at hn
    obtain ⟨n, rfl⟩ : ∃ m, n = m + 1 := ⟨n - 1, by omega⟩
    obtain ⟨d, hread, hd⟩ :=
      readValue_text v hv n (',' :: (text w ++ itemsText ws ++ rest)) (by omega)
    obtain ⟨ds, hreads, hds⟩ :=
      readItems_text w ws hvs.1 hvs.2 n rest (by rw [List.length_append]; omega)
    obtain ⟨c, cs, hhead, hspace, hne⟩ := text_head hvs.1
    refine ⟨d :: ds, ?_, ?_⟩
    · rw [hhead] at hread hreads
      rw [itemsText, hhead]
      simp only [List.append_assoc, List.cons_append] at hread hreads ⊢
      rw [readItems_more hread hspace hne, hreads]
    · rw [Draft.toJsonItems, hd, hds]
      rfl
termination_by n

theorem readMembers_text (k : String) (v : Json) (ms : List (String × Json)) (hv : Numberless v)
    (hms : MembersNumberless ms) (n : Nat) (rest : List Char)
    (hn : (stringText k ++ ':' :: (text v ++ membersText ms)).length ≤ n) :
    ∃ ds, readMembers n (stringText k ++ ':' :: (text v ++ membersText ms) ++ rest) =
        (ds, none, some rest) ∧
      Draft.toJsonMembers ds = .ok ((k, v) :: ms) := by
  match ms, hms with
  | [], _ =>
    simp only [membersText, List.length_append, List.length_cons] at hn
    obtain ⟨n, rfl⟩ : ∃ m, n = m + 1 := ⟨n - 1, by omega⟩
    obtain ⟨d, hread, hd⟩ := readValue_text v hv n ('}' :: rest) (by omega)
    refine ⟨[(.ok k, d)], ?_, ?_⟩
    · simp only [membersText, List.append_assoc, List.cons_append, List.nil_append]
      exact readMembers_last k hread
    · simp only [Draft.toJsonMembers, hd]
      rfl
  | (k', w) :: ws, hms =>
    simp only [membersText, List.length_append, List.length_cons] at hn
    obtain ⟨n, rfl⟩ : ∃ m, n = m + 1 := ⟨n - 1, by omega⟩
    obtain ⟨d, hread, hd⟩ := readValue_text v hv n
      (',' :: (stringText k' ++ ':' :: (text w ++ membersText ws) ++ rest)) (by omega)
    obtain ⟨ds, hreads, hds⟩ := readMembers_text k' w ws hms.1 hms.2 n rest
      (by simp only [List.length_append, List.length_cons]; omega)
    refine ⟨(.ok k, d) :: ds, ?_, ?_⟩
    · have hquote : ∀ x, stringText k' ++ x = '"' :: (k'.toList.flatMap escapeChar ++ '"' :: x) := by
        simp [stringText]
      simp only [membersText, List.append_assoc, List.cons_append] at hread hreads ⊢
      rw [hquote] at hread hreads ⊢
      rw [readMembers_more k hread, hreads]
    · rw [Draft.toJsonMembers, hd, hds]
      rfl
termination_by n

end

/-- The text of a value is read to its end, as a draft of that value. -/
theorem ofText_render {v : Json} (h : Numberless v) :
    ∃ d, Reading.ofText v.render = ⟨d, false⟩ ∧ d.toJson = .ok v := by
  obtain ⟨d, hread, hd⟩ := readValue_text v h (2 * (text v).length + 2) [] (by omega)
  rw [List.append_nil] at hread
  refine ⟨d, ?_, hd⟩
  unfold Reading.ofText render
  simp only [String.toList_ofList, hread]
  rfl

/-- Reading what is written gives back the value. -/
theorem parse_render {v : Json} (h : Numberless v) : parse v.render = .ok v := by
  obtain ⟨d, hread, hd⟩ := ofText_render h
  unfold parse
  simp only [hread, hd]
  rfl

theorem render_inj {v w : Json} (hv : Numberless v) (hw : Numberless w) :
    v.render = w.render ↔ v = w := by
  refine ⟨fun h => ?_, congrArg render⟩
  have := parse_render hv
  rw [h, parse_render hw] at this
  exact (Except.ok.inj this).symm

/-! ## The draft of a value -/

namespace Draft
variable {d : Draft} {members : List (DraftText × Draft)} {ms : List (String × Json)} {v : Json}

theorem toJson_string_eq_ok_iff {s : DraftText} :
    (string s).toJson = .ok v ↔ ∃ text, s = .ok text ∧ v = .string text := by
  rw [toJson]
  exact map_eq_ok_iff

theorem toJson_array_eq_ok_iff {items : List Draft} {stop : Option Break} :
    (array items stop).toJson = .ok v ↔
      stop = none ∧ ∃ vs, toJsonItems items = .ok vs ∧ v = .array vs := by
  rw [toJson]
  cases toJsonItems items <;> cases stop <;> simp [bind, Except.bind, eq_comm]

theorem toJson_object_eq_ok_iff {stop : Option Break} :
    (object members stop).toJson = .ok v ↔
      stop = none ∧ ∃ ms, toJsonMembers members = .ok ms ∧ v = .object ms := by
  rw [toJson]
  cases toJsonMembers members <;> cases stop <;> simp [bind, Except.bind, eq_comm]

theorem toJson_eq_null_iff : d.toJson = .ok .null ↔ d = .null := by
  cases d <;> simp [toJson_string_eq_ok_iff, toJson_array_eq_ok_iff, toJson_object_eq_ok_iff]
  all_goals simp [toJson]

theorem toJson_eq_bool_iff {b : Bool} : d.toJson = .ok (.bool b) ↔ d = .bool b := by
  cases d <;> simp [toJson_string_eq_ok_iff, toJson_array_eq_ok_iff, toJson_object_eq_ok_iff]
  all_goals simp [toJson]

theorem toJson_eq_string_iff {s : String} : d.toJson = .ok (.string s) ↔ d = .string (.ok s) := by
  cases d <;> simp [toJson_string_eq_ok_iff, toJson_array_eq_ok_iff, toJson_object_eq_ok_iff]
  all_goals simp [toJson]

theorem toJson_eq_object_iff :
    d.toJson = .ok (.object ms) ↔
      ∃ members, d = .object members none ∧ toJsonMembers members = .ok ms := by
  cases d <;> simp [toJson_string_eq_ok_iff, toJson_array_eq_ok_iff, toJson_object_eq_ok_iff,
    and_assoc]
  all_goals simp [toJson]

theorem toJsonMembers_eq_nil_iff : toJsonMembers members = .ok [] ↔ members = [] := by
  rcases members with _ | ⟨⟨k, d⟩, rest⟩
  · simp [toJsonMembers]
  · rw [toJsonMembers]
    cases k <;> cases d.toJson <;> cases toJsonMembers rest <;>
      simp [bind, Except.bind, pure, Except.pure]

theorem toJsonMembers_eq_cons_iff {key : String} :
    toJsonMembers members = .ok ((key, v) :: ms) ↔
      ∃ d rest, members = (.ok key, d) :: rest ∧ d.toJson = .ok v ∧
        toJsonMembers rest = .ok ms := by
  rcases members with _ | ⟨⟨k, d⟩, rest⟩
  · simp [toJsonMembers]
  · rw [toJsonMembers]
    cases k <;> cases hd : d.toJson <;> cases hrest : toJsonMembers rest <;>
      simp [bind, Except.bind, pure, Except.pure, hd, hrest, and_assoc]

end Draft

end TokenKeeper.Json
