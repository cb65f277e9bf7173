import TokenKeeper.Yaml.Token
import TokenKeeper.Proofs.Slot.Scalar

/-!
# Names, tags and directives before and behind the word

They are read alike from corresponding places, and none of them reads past a blank.
-/

namespace TokenKeeper.Yaml

variable {s : Slot} {b n m : Nat} {c c' d : Cursor} {x : Char} {inFlow verbatim inDirective : Bool}
  {text name head : List Char} {t : Token}

/-! ## Moving on -/

@[grind →]
theorem readAnchor_leadsTo (h : readAnchor c = .ok (name, c')) : c.LeadsTo c' := by
  simp only [readAnchor] at h
  grind

@[grind →]
theorem readHandle_leadsTo (h : readHandle inDirective c = .ok (name, c')) : c.LeadsTo c' := by
  simp only [readHandle] at h
  grind

/-- The byte behind a percent sign. -/
def octet? (c : Cursor) : Option Nat :=
  if c.sees 0 '%' then
    match (c.rest.drop 1).take 2 with
    | [a, b] => hexNumber? [a, b]
    | _ => none
  else none

@[grind →]
theorem readOctets_more_leadsTo {k v v' : Nat} (h : readOctets.more octet? k v c = .ok (v', c')) :
    c.LeadsTo c' := by
  induction k generalizing v c with
  | zero => simp only [readOctets.more] at h; grind
  | succ k ih => simp only [readOctets.more] at h; grind

/-- How many bytes follow the first one of a character, and what that one contributes. -/
def leadOctet? (o : Nat) : Option (Nat × Nat) :=
  if o < 0x80 then some (0, o)
  else if o / 32 == 6 then some (1, o % 32)
  else if o / 16 == 14 then some (2, o % 16)
  else if o / 8 == 30 then some (3, o % 8)
  else none

theorem readOctets_eq (c : Cursor) : readOctets c =
    match octet? c with
    | none => .error .tag
    | some o =>
      match leadOctet? o with
      | none => .error .tag
      | some (n, v) => do
        let (v, c) ← readOctets.more octet? n v (c.skip 3)
        return (Char.ofNat v, c) := rfl

@[grind →]
theorem readOctets_leadsTo (h : readOctets c = .ok (x, c')) : c.LeadsTo c' := by
  simp only [readOctets_eq, bind, Except.bind, pure, Except.pure] at h
  grind

@[grind →]
theorem readTagText_leadsTo (h : readTagText verbatim n c = .ok (text, c')) : c.LeadsTo c' := by
  induction n generalizing c text with
  | zero => simp only [readTagText] at h; grind
  | succ n ih =>
    simp only [readTagText, bind, Except.bind, pure, Except.pure] at h
    grind

@[grind →]
theorem readTagSuffix_leadsTo (h : readTagSuffix verbatim head c = .ok (text, c')) :
    c.LeadsTo c' := by
  obtain ⟨⟨text, after⟩, htext, h⟩ := bind_eq_ok_iff.1 h
  obtain ⟨-, h⟩ := guard_eq_ok_iff.1 h
  cases h
  exact readTagText_leadsTo htext

/-- A tag between angle brackets, behind the first of them. -/
def verbatimTag (c : Cursor) : Except Fault (Token × Cursor) := do
  let (suffix, c) ← readTagSuffix true [] c
  if !c.sees 0 '>' then throw .tag
  return (.tag [] suffix, c.next)

/-- A tag that begins with a handle. -/
def shorthandTag (c : Cursor) : Except Fault (Token × Cursor) := do
  let (handle, c) ← readHandle false c
  if 1 < handle.length && handle.getLast? == some '!' then
    let (suffix, c) ← readTagSuffix false [] c
    return (.tag handle suffix, c)
  else
    let (suffix, c) ← readTagSuffix false handle c
    return (if suffix.isEmpty then .tag [] ['!'] else .tag ['!'] suffix, c)

/-- The tag that has been read, if it may end here. -/
def tagEnd (inFlow : Bool) (r : Token × Cursor) : Except Fault (Token × Cursor) :=
  if !(inFlow && r.2.sees 0 ',') && !r.2.gapAt 0 then .error .tag else .ok r

theorem readTag_eq (inFlow : Bool) (c : Cursor) : readTag inFlow c =
    (if c.sees 1 '<' then verbatimTag (c.skip 2) else shorthandTag c) >>= tagEnd inFlow := by
  unfold readTag
  split_ifs
  · unfold verbatimTag
    cases readTagSuffix true [] (c.skip 2) with
    | error => rfl
    | ok r =>
      simp only [bind, Except.bind]
      split_ifs <;> rfl
  · unfold shorthandTag
    cases readHandle false c with
    | error => rfl
    | ok r =>
      simp only [bind, Except.bind]
      split_ifs
      · cases readTagSuffix false [] r.2 <;> rfl
      · cases readTagSuffix false r.1 r.2 <;> rfl

@[grind →]
theorem verbatimTag_leadsTo (h : verbatimTag c = .ok (t, c')) : c.LeadsTo c' := by
  simp only [verbatimTag, bind, Except.bind, pure, Except.pure, throw, throwThe,
    MonadExceptOf.throw] at h
  grind

@[grind →]
theorem shorthandTag_leadsTo (h : shorthandTag c = .ok (t, c')) : c.LeadsTo c' := by
  simp only [shorthandTag, bind, Except.bind, pure, Except.pure] at h
  grind

theorem tagEnd_leadsTo {r r' : Token × Cursor} (h : tagEnd inFlow r = .ok r') :
    r.2.LeadsTo r'.2 := by
  unfold tagEnd at h
  split_ifs at h
  cases h
  exact .refl _

@[grind →]
theorem readTag_leadsTo (h : readTag inFlow c = .ok (t, c')) : c.LeadsTo c' := by
  rw [readTag_eq] at h
  obtain ⟨⟨t', c1⟩, hread, hend⟩ := bind_eq_ok_iff.1 h
  have hleads : c.LeadsTo c1 := by
    split_ifs at hread <;> grind
  exact hleads.trans (tagEnd_leadsTo hend)

@[grind →]
theorem readVersionNumber_leadsTo (h : readVersionNumber c = .ok (n, c')) : c.LeadsTo c' := by
  simp only [readVersionNumber] at h
  grind

/-- The version of the language that a directive names. -/
def versionDirective (c : Cursor) : Except Fault (Token × Cursor) := do
  let (major, c) ← readVersionNumber c
  if !c.sees 0 '.' then throw .directive
  let (minor, c) ← readVersionNumber c.next
  return (.version major minor, c)

/-- The handle that a directive names, and what it stands for. -/
def handleDirective (c : Cursor) : Except Fault (Token × Cursor) := do
  let (handle, c) ← readHandle true c
  if !c.test 0 isBlank then throw .directive
  let (stem, c) ← readTagSuffix true [] (c.skipWhile isBlank)
  if !c.gapAt 0 then throw .directive
  return (.tagHandle handle stem, c)

/-- The directive that has been read, and the place behind its line. -/
def directiveEnd (r : Token × Cursor) : Except Fault (Token × Cursor) :=
  let c := (r.2.skipWhile isBlank).skipComment
  if !c.atLineEnd then .error .directive else .ok (r.1, c.lineBreak.2)

theorem readDirective_eq (c : Cursor) : readDirective c =
    let name := (c.next.span isName).1
    let c := (c.next.span isName).2
    if name.isEmpty || !c.gapAt 0 then .error .directive
    else
      (if name == ['Y', 'A', 'M', 'L'] then versionDirective (c.skipWhile isBlank)
        else if name == ['T', 'A', 'G'] then handleDirective (c.skipWhile isBlank)
        else .error .directive) >>= directiveEnd := by
  unfold readDirective
  dsimp only
  by_cases hname : ((c.next.span isName).1.isEmpty || !(c.next.span isName).2.gapAt 0) = true
  · rw [if_pos hname, if_pos hname]
    rfl
  rw [if_neg hname, if_neg hname]
  split_ifs
  · unfold versionDirective
    cases readVersionNumber ((c.next.span isName).2.skipWhile isBlank) with
    | error => rfl
    | ok r =>
      simp only [bind, Except.bind]
      split_ifs
      · rfl
      · cases readVersionNumber r.2.next <;> rfl
  · unfold handleDirective
    cases readHandle true ((c.next.span isName).2.skipWhile isBlank) with
    | error => rfl
    | ok r =>
      simp only [bind, Except.bind]
      split_ifs
      · rfl
      · cases readTagSuffix true [] (r.2.skipWhile isBlank) with
        | error => rfl
        | ok r =>
          dsimp only
          split_ifs <;> rfl
  · rfl

@[grind →]
theorem versionDirective_leadsTo (h : versionDirective c = .ok (t, c')) : c.LeadsTo c' := by
  simp only [versionDirective, bind, Except.bind, pure, Except.pure, throw, throwThe,
    MonadExceptOf.throw] at h
  grind

@[grind →]
theorem handleDirective_leadsTo (h : handleDirective c = .ok (t, c')) : c.LeadsTo c' := by
  simp only [handleDirective, bind, Except.bind, pure, Except.pure, throw, throwThe,
    MonadExceptOf.throw] at h
  grind

theorem directiveEnd_leadsTo {r r' : Token × Cursor} (h : directiveEnd r = .ok r') :
    r.2.LeadsTo r'.2 := by
  unfold directiveEnd at h
  dsimp only at h
  split_ifs at h
  cases h
  exact ((Cursor.leadsTo_skipWhile _ _).trans (Cursor.leadsTo_skipComment _)).trans
    (Cursor.leadsTo_lineBreak _)

@[grind →]
theorem readDirective_leadsTo (h : readDirective c = .ok (t, c')) : c.LeadsTo c' := by
  rw [readDirective_eq] at h
  dsimp only at h
  split at h
  · cases h
  obtain ⟨⟨t', c1⟩, hread, hend⟩ := bind_eq_ok_iff.1 h
  have hleads : c.LeadsTo c1 := by
    split_ifs at hread <;> grind
  exact hleads.trans (directiveEnd_leadsTo hend)

/-! ## Reading alike -/

theorem isBlank_of_isName (h : isName x = true) : isBlank x = false := by
  cases hblank : isBlank x with
  | false => rfl
  | true =>
    simp only [isBlank, Bool.or_eq_true, beq_iff_eq] at hblank
    obtain rfl | rfl := hblank <;> cases h

theorem readAnchor_tracks (h : Clear s b c d) :
    Tracks (Clear s) b (readAnchor c) (readAnchor d) := by
  obtain ⟨hname, hafter⟩ := h.span (p := isName) fun _ => isBlank_of_isName
  simp only [readAnchor, hname, hafter.gapAt_zero, hafter.test_zero]
  exact .ite (fun _ => .error _ _) fun _ => .ok hafter rfl

theorem readHandle_tracks (h : Near s b c d) :
    Tracks (Clear s) b (readHandle inDirective c) (readHandle inDirective d) := by
  cases h with
  | slot => exact .error _ _
  | clear h =>
    simp only [readHandle, h.sees_zero]
    refine .ite (fun _ => .error _ _) fun hsees => ?_
    have hnext := h.next_of_solid (Cursor.sees_zero_iff.1 (by simpa using hsees)) rfl
    obtain ⟨hname, hafter⟩ := hnext.span (p := isName) fun _ => isBlank_of_isName
    simp only [hname, hafter.sees_zero]
    refine .ite (fun hmark => .ok (hafter.next_of_solid (Cursor.sees_zero_iff.1 hmark) rfl) rfl)
      fun _ => ?_
    exact .ite (fun _ => .error _ _) fun _ => .ok hafter rfl

theorem octet?_tracks (h : Clear s b c d) {o : Nat} (ho : octet? c = some o) :
    octet? d = some o ∧ Clear s b (c.skip 3) (d.skip 3) := by
  unfold octet? at ho ⊢
  rw [h.sees_zero]
  split at ho
  next hsees =>
    have hnext := h.next_of_solid (Cursor.sees_zero_iff.1 hsees) rfl
    have hdrop (c : Cursor) : c.rest.drop 1 = c.next.rest := by
      obtain ⟨_ | ⟨y, cs⟩, i, l, k⟩ := c <;> rfl
    rw [hdrop] at ho ⊢
    split at ho
    next x y htake =>
      obtain ⟨heq, hskip⟩ := hnext.take (n := 2) (htake ▸ isBlank_of_hexNumber? ho)
      rw [if_pos hsees, heq, htake]
      exact ⟨ho, hskip⟩
    · cases ho
  · cases ho

theorem readOctets_more_tracks {k v : Nat} (h : Clear s b c d) :
    Tracks (Clear s) b (readOctets.more octet? k v c) (readOctets.more octet? k v d) := by
  induction k generalizing v c d with
  | zero => exact .ok h rfl
  | succ k ih =>
    rw [readOctets.more, readOctets.more]
    cases ho : octet? c with
    | none => exact .error _ _
    | some o =>
      obtain ⟨hd, hskip⟩ := octet?_tracks h ho
      rw [hd]
      exact .ite (fun _ => ih hskip) fun _ => .error _ _

theorem readOctets_tracks (h : Clear s b c d) :
    Tracks (Clear s) b (readOctets c) (readOctets d) := by
  rw [readOctets_eq, readOctets_eq]
  cases ho : octet? c with
  | none => exact .error _ _
  | some o =>
    obtain ⟨hd, hskip⟩ := octet?_tracks h ho
    rw [hd]
    dsimp only
    cases leadOctet? o with
    | none => exact .error _ _
    | some lead =>
      exact .bind (readOctets_more_tracks hskip) (fun _ _ h => by cases h; exact .refl _)
        fun _ _ _ hclear => .ok hclear rfl

/-- The characters that stand for themselves in a tag. -/
def isTagSign (verbatim : Bool) (x : Char) : Bool :=
  isName x || [';', '/', '?', ':', '@', '&', '=', '+', '$', '.', '!', '~', '*', '\'', '(',
    ')'].contains x || (verbatim && [',', '[', ']'].contains x)

theorem readTagText_succ (verbatim : Bool) (n : Nat) (c : Cursor) :
    readTagText verbatim (n + 1) c =
      match c.peek with
      | none => .ok ([], c)
      | some x =>
        if x == '%' then do
          let (x, c) ← readOctets c
          let (text, c) ← readTagText verbatim n c
          return (x :: text, c)
        else if isTagSign verbatim x then do
          let (text, c) ← readTagText verbatim n c.next
          return (x :: text, c)
        else .ok ([], c) := rfl

theorem readOctets_length {y : Char} (hx : c.peek = some x) (h : readOctets c = .ok (y, c')) :
    c'.rest.length < c.rest.length := by
  have hskip := c.length_skip hx (n := 3) (by omega)
  have hle (k v v') {c c' : Cursor} (h : readOctets.more octet? k v c = .ok (v', c')) :=
    (readOctets_more_leadsTo h).length_le
  simp only [readOctets_eq, bind, Except.bind, pure, Except.pure] at h
  grind

theorem readTagText_tracks (h : Near s b c d) (hn : c.rest.length < n) (hm : d.rest.length < m) :
    Tracks (Clear s) b (readTagText verbatim n c) (readTagText verbatim m d) := by
  induction n generalizing m c d with
  | zero => omega
  | succ n ih =>
    obtain ⟨m, rfl⟩ : ∃ k, m = k + 1 := ⟨m - 1, by omega⟩
    rw [readTagText_succ, readTagText_succ]
    cases h with
    | slot i l k hi hk =>
      refine .passed fun ⟨text, c'⟩ hread => ?_
      have hpeek : (Cursor.mk (s.word ++ s.rest) i l k).peek = some '$' := rfl
      have hpercent : ('$' == '%') = false := rfl
      have hsign : isTagSign verbatim '$' = true := rfl
      simp only [hpeek, hpercent, hsign, bind, Except.bind, pure, Except.pure] at hread
      exact Cursor.LeadsTo.passed (by grind) (Near.passed_next i l k)
    | clear h =>
      rw [h.peek_eq]
      split
      next => exact .ok h rfl
      next x hx =>
        have hlen := Cursor.length_next hx
        have hlen' := Cursor.length_next (h.peek_eq.trans hx)
        refine .ite (fun hpercent => ?_) fun _ => .ite (fun hsign => ?_) fun _ => .ok h rfl
        · refine .bind (readOctets_tracks h) ?_ ?_
          · rintro ⟨y, c1⟩ ⟨text, c'⟩ h
            simp only [bind, Except.bind, pure, Except.pure] at h
            grind
          rintro ⟨y, c1⟩ d1 hread (h1 : Clear s b c1 d1)
          have hlt := readOctets_length hx hread
          have hlt' := Near.length_lt (.clear h) (.clear h1) hlt
          exact .bind (ih (c := c1) (d := d1) (.clear h1) (by omega) (by omega))
            (fun _ _ h => by cases h; exact .refl _) fun _ _ _ hclear => .ok hclear rfl
        · exact .bind (ih (h.next hx) (by omega) (by omega))
            (fun _ _ h => by cases h; exact .refl _) fun _ _ _ hclear => .ok hclear rfl

theorem readTagSuffix_tracks (h : Near s b c d) :
    Tracks (Clear s) b (readTagSuffix verbatim head c) (readTagSuffix verbatim head d) := by
  refine .bind (readTagText_tracks h (Nat.lt_succ_self _) (Nat.lt_succ_self _)) ?_ ?_
  · rintro ⟨text, after⟩ ⟨text', c'⟩ h
    obtain ⟨-, h⟩ := guard_eq_ok_iff.1 h
    cases h
    exact .refl _
  rintro ⟨text, after⟩ d1 - (h1 : Clear s b after d1)
  simp only [Placed.moved, h.index_beq (.clear h1)]
  exact .ite (fun _ => .error _ _) fun _ => .ok h1 rfl

theorem verbatimTag_tracks (h : Near s b c d) :
    Tracks (Clear s) b (verbatimTag c) (verbatimTag d) := by
  refine .bind (readTagSuffix_tracks h) ?_ ?_
  · rintro ⟨suffix, c1⟩ ⟨t, c'⟩ h
    obtain ⟨-, h⟩ := guard_eq_ok_iff.1 h
    cases h
    exact Cursor.leadsTo_next _
  rintro ⟨suffix, c1⟩ d1 - (h1 : Clear s b c1 d1)
  simp only [Placed.moved, h1.sees_zero]
  refine .ite (fun _ => .error _ _) fun hclose => .ok (h1.next_of_solid (x := '>') ?_ rfl) rfl
  exact Cursor.sees_zero_iff.1 (by simpa using hclose)

theorem shorthandTag_tracks (h : Near s b c d) :
    Tracks (Clear s) b (shorthandTag c) (shorthandTag d) := by
  have hsuffix {head : List Char} {c1 d1 : Cursor} (f : List Char → Token) (h1 : Clear s b c1 d1) :
      Tracks (Clear s) b
        (readTagSuffix false head c1 >>= fun r => .ok (f r.1, r.2))
        (readTagSuffix false head d1 >>= fun r => .ok (f r.1, r.2)) :=
    .bind (readTagSuffix_tracks (.clear h1)) (fun _ _ h => by cases h; exact .refl _)
      fun _ _ _ hclear => .ok hclear rfl
  refine .bind (readHandle_tracks h) ?_ ?_
  · rintro ⟨handle, c1⟩ ⟨t, c'⟩ h
    simp only [bind, Except.bind, pure, Except.pure] at h
    grind
  rintro ⟨handle, c1⟩ d1 - (h1 : Clear s b c1 d1)
  exact .ite (fun _ => hsuffix (.tag handle) h1) fun _ =>
    hsuffix (fun suffix => if suffix.isEmpty then .tag [] ['!'] else .tag ['!'] suffix) h1

theorem readTag_tracks (h : Clear s b c d) (hx : c.peek = some '!') :
    Tracks (Clear s) b (readTag inFlow c) (readTag inFlow d) := by
  have hnext := h.next_of_solid hx rfl
  rw [readTag_eq, readTag_eq, h.sees_one hx rfl]
  refine .bind (R := Clear s) (.ite (fun hangle => ?_) fun _ => shorthandTag_tracks (.clear h))
    (fun _ _ => tagEnd_leadsTo) ?_
  · have hangle := Cursor.sees_zero_iff.1 (c.sees_succ 0 '<' ▸ hangle)
    exact verbatimTag_tracks (c := c.skip 2) (.clear (hnext.next_of_solid hangle rfl))
  · rintro ⟨t, c1⟩ d1 - (h1 : Clear s b c1 d1)
    simp only [tagEnd, Placed.moved, h1.sees_zero, h1.gapAt_zero]
    exact .ite (fun _ => .error _ _) fun _ => .ok h1 rfl

theorem readVersionNumber_tracks (h : Near s b c d) :
    Tracks (Clear s) b (readVersionNumber c) (readVersionNumber d) := by
  cases h with
  | slot => exact .error _ _
  | clear h =>
    obtain ⟨hdigits, hafter⟩ := h.span (p := Char.isDigit) fun _ => isBlank_of_isDigit
    simp only [readVersionNumber, hdigits]
    exact .ite (fun _ => .error _ _) fun _ => .ok hafter rfl

theorem versionDirective_tracks (h : Near s b c d) :
    Tracks (Clear s) b (versionDirective c) (versionDirective d) := by
  refine .bind (readVersionNumber_tracks h) ?_ ?_
  · rintro ⟨major, c1⟩ ⟨t, c'⟩ h
    simp only [bind, Except.bind, pure, Except.pure, throw, throwThe, MonadExceptOf.throw] at h
    grind
  rintro ⟨major, c1⟩ d1 - (h1 : Clear s b c1 d1)
  simp only [Placed.moved, h1.sees_zero]
  refine .ite (fun _ => .error _ _) fun hpoint => ?_
  have hpoint := h1.next_of_solid (x := '.') (Cursor.sees_zero_iff.1 (by simpa using hpoint)) rfl
  exact .bind (readVersionNumber_tracks (.clear hpoint)) (fun _ _ h => by cases h; exact .refl _)
    fun _ _ _ hclear => .ok hclear rfl

theorem handleDirective_tracks (h : Near s b c d) :
    Tracks (Clear s) b (handleDirective c) (handleDirective d) := by
  refine .bind (readHandle_tracks h) ?_ ?_
  · rintro ⟨handle, c1⟩ ⟨t, c'⟩ h
    simp only [bind, Except.bind, pure, Except.pure, throw, throwThe, MonadExceptOf.throw] at h
    grind
  rintro ⟨handle, c1⟩ d1 - (h1 : Clear s b c1 d1)
  simp only [Placed.moved, h1.test_zero]
  refine .ite (fun _ => .error _ _) fun _ => ?_
  rcases Near.skipBlanks (.clear h1) with hpassed | h2
  · refine .passed ?_
    rintro ⟨t, c'⟩ h
    refine Cursor.LeadsTo.passed ?_ hpassed
    simp only [bind, Except.bind, pure, Except.pure, throw, throwThe, MonadExceptOf.throw] at h
    grind
  refine .bind (readTagSuffix_tracks h2) ?_ ?_
  · rintro ⟨stem, c3⟩ ⟨t, c'⟩ h
    obtain ⟨-, h⟩ := guard_eq_ok_iff.1 h
    cases h
    exact .refl _
  rintro ⟨stem, c3⟩ d3 - (h3 : Clear s b c3 d3)
  simp only [Placed.moved, h3.gapAt_zero]
  exact .ite (fun _ => .error _ _) fun _ => .ok h3 rfl

theorem directiveEnd_tracks (h : Clear s b c d) :
    Tracks (Near s) b (directiveEnd (t, c)) (directiveEnd (t, d)) := by
  -- the word may stand in the comment at the end of the line
  rcases Near.skipRemark (.clear h) with hpassed | h1
  · refine .passed fun r hr => ?_
    unfold directiveEnd at hr
    dsimp only at hr
    split_ifs at hr
    cases hr
    exact Cursor.LeadsTo.passed (Cursor.leadsTo_lineBreak _) hpassed
  · simp only [directiveEnd, h1.atLineEnd]
    exact .ite (fun _ => .error _ _) fun _ => .ok h1.lineBreak.2 rfl

theorem readDirective_tracks (h : Clear s b c d) (hx : c.peek = some '%') :
    Tracks (Near s) b (readDirective c) (readDirective d) := by
  obtain ⟨hname, hafter⟩ := (h.next_of_solid hx rfl).span (p := isName) fun _ => isBlank_of_isName
  simp only [readDirective_eq, hname, hafter.gapAt_zero]
  refine .ite (fun _ => .error _ _) fun _ => .bind (R := Clear s) ?_
    (fun _ _ => directiveEnd_leadsTo) fun _ _ _ hclear => directiveEnd_tracks hclear
  -- and it may stand where the name of the directive has its arguments
  rcases Near.skipBlanks (.clear hafter) with hpassed | h1
  · refine .passed ?_
    rintro ⟨t, c'⟩ hread
    refine Cursor.LeadsTo.passed ?_ hpassed
    split_ifs at hread
    · exact versionDirective_leadsTo hread
    · exact handleDirective_leadsTo hread
  · exact .ite (fun _ => versionDirective_tracks h1) fun _ =>
      .ite (fun _ => handleDirective_tracks h1) fun _ => .error _ _

end TokenKeeper.Yaml
