import IntentGrammar.Proofs.Pieces

/-!
# Sentences are read whole

What a sentence is read as is told by its text alone.  Behind its weight it is a row of groups with
stretches of plain text between them, and every group and every stretch that is not blank is one
element (`Comprises`).  The pieces that spell a text make up just what it comprises
(`comprises_iff`).

Together with the weight (`readWeight_eq_ok_iff`) this says which sentences are accepted, what they
are read as, and where the others are refused (**`sentences_are_read_whole`**).
-/

namespace IntentGrammar

open Text

/-! ### Elements -/

/-- The literal for a stretch of plain text, unless it is blank. -/
def stretch (text : List Char) : List Element :=
  if text.all isBlank then [] else [.literal (String.ofList (trim text)) false]

theorem stretch_eq_nil_iff {text : List Char} :
    stretch text = [] ↔ ∀ c ∈ text, isBlank c = true := by
  rw [stretch, ← List.all_eq_true]
  split
  · next hblank => exact ⟨fun _ => hblank, fun _ => rfl⟩
  · next hblank => exact ⟨nofun, fun h => absurd h hblank⟩

/-- A text that starts in a column is a row of groups with plain text in between, and these are the
elements for the groups and for the stretches between them. -/
inductive Comprises : Nat → List Char → List Element → Prop
  | last {column : Nat} {text : List Char} : Plain text → Comprises column text (stretch text)
  | group {column : Nat} {text body rest : List Char} {mark : Mark} {e : Element}
      {es : List Element} :
      Plain text → Plain body → mark.Means (column + text.length) body e →
      Comprises (column + (text ++ mark.group body).length) rest es →
      Comprises column (text ++ (mark.group body ++ rest)) (stretch text ++ e :: es)

theorem flush_eq (backwards : List Char) : flush backwards = stretch backwards.reverse := by
  rw [flush, stretch]
  simp only [List.isEmpty_iff, trim_eq_nil_iff, List.all_eq_true]

theorem elementsFrom_group {piece : Piece} {e : Element} (h : piece.element? = some e)
    (backwards : List Char) (ps : List Piece) :
    elementsFrom backwards (piece :: ps) = stretch backwards.reverse ++ e :: elementsOf ps := by
  rw [← flush_eq]
  cases piece with
  | text c => cases h
  | segment words | reference r =>
    obtain rfl := Option.some.inj h
    rfl

theorem elementsFrom_text (backwards text : List Char) (ps : List Piece) :
    elementsFrom backwards (text.map .text ++ ps)
      = elementsFrom (text.reverse ++ backwards) ps := by
  induction text generalizing backwards with
  | nil => rfl
  | cons c text ih =>
    rw [List.reverse_cons, List.append_assoc]
    exact ih (c :: backwards)

section Elements

variable {width : Nat} {cs : List Char} {ps : List Piece}

theorem columnOf_add {left : Nat} {text : List Char} (h : text.length + left ≤ width) :
    columnOf width (text.length + left) + text.length = columnOf width left := by
  rw [columnOf, columnOf]
  omega

/-- What pieces make up, after a stretch of plain text. -/
theorem Spells.comprises_elementsFrom (h : Spells width ps cs) {backwards : List Char}
    (hplain : Plain backwards) (hwidth : backwards.length + cs.length ≤ width) :
    Comprises (columnOf width (backwards.length + cs.length)) (backwards.reverse ++ cs)
      (elementsFrom backwards ps) := by
  have hreverse {backwards : List Char} (h : Plain backwards) : Plain backwards.reverse :=
    fun c hc => h c (List.mem_reverse.mp hc)
  induction h generalizing backwards with
  | nil =>
    rw [List.append_nil, elementsFrom, flush_eq]
    exact .last (hreverse hplain)
  | @text c ps cs hc _ ih =>
    have hlength : (c :: backwards).length + cs.length = backwards.length + (c :: cs).length := by
      rw [List.length_cons, List.length_cons, Nat.add_right_comm, Nat.add_assoc]
    have hrest := ih (plain_cons.mpr ⟨hc, hplain⟩) (by rw [hlength]; exact hwidth)
    rw [hlength, List.reverse_cons, List.append_assoc] at hrest
    exact hrest
  | @group mark body cs piece ps hbody hpiece hrest ih =>
    obtain ⟨e, he⟩ := Mark.exists_element?_of_read hpiece
    rw [elementsFrom_group he]
    -- the group and the rest are in the columns that are so many characters from the end
    have hgroup := columnOf_add hwidth
    have hbehind : columnOf width (mark.group body ++ cs).length + (mark.group body).length
        = columnOf width cs.length := by
      rw [List.length_append] at hwidth ⊢
      exact columnOf_add (by omega)
    refine .group (hreverse hplain) hbody ?_ ?_
    · rw [List.length_reverse, hgroup]
      exact Mark.means_iff.mpr ⟨piece, hpiece, he⟩
    · have hlength : (backwards.reverse ++ mark.group body).length
          = backwards.length + (mark.group body).length := by
        rw [List.length_append, List.length_reverse]
      rw [hlength, ← Nat.add_assoc, hgroup, hbehind]
      have hnothing : Plain [] := nofun
      have hempty := ih hnothing (by rw [List.length_append] at hwidth; simp; omega)
      rwa [List.length_nil, Nat.zero_add] at hempty

theorem spells_text {text : List Char} (htext : Plain text) (h : Spells width ps cs) :
    Spells width (text.map .text ++ ps) (text ++ cs) := by
  induction text with
  | nil => exact h
  | cons c text ih =>
    obtain ⟨hc, htext⟩ := plain_cons.mp htext
    exact .text hc (ih htext)

/-- What a text comprises is made up by pieces. -/
theorem Comprises.exists_spells {column : Nat} {es : List Element} (h : Comprises column cs es)
    (hcolumn : column = columnOf width cs.length) (hwidth : cs.length ≤ width) :
    ∃ ps, Spells width ps cs ∧ elementsOf ps = es := by
  induction h with
  | @last column text htext =>
    refine ⟨text.map .text, ?_, ?_⟩
    · simpa using spells_text htext (.nil : Spells width [] [])
    · have hmake := elementsFrom_text [] text []
      rw [List.append_nil, List.append_nil, elementsFrom, flush_eq, List.reverse_reverse] at hmake
      exact hmake
  | @group column text body rest mark e es htext hbody he _ ih =>
    rw [List.length_append] at hwidth
    have hgroup : column + text.length = columnOf width (mark.group body ++ rest).length := by
      rw [hcolumn, List.length_append]
      exact columnOf_add hwidth
    have hbehind : column + (text ++ mark.group body).length = columnOf width rest.length := by
      rw [List.length_append, ← Nat.add_assoc, hgroup, List.length_append]
      rw [List.length_append] at hwidth
      exact columnOf_add (by omega)
    obtain ⟨ps, hps, hes⟩ := ih hbehind (by rw [List.length_append] at hwidth; omega)
    rw [hgroup] at he
    obtain ⟨piece, hpiece, hpe⟩ := Mark.means_iff.mp he
    refine ⟨text.map .text ++ piece :: ps, spells_text htext (.group hbody hpiece hps), ?_⟩
    rw [elementsOf, elementsFrom_text, elementsFrom_group hpe, List.append_nil,
      List.reverse_reverse, hes]

/-- **What a text comprises** is what the pieces make up that spell it. -/
theorem comprises_iff (hwidth : cs.length ≤ width) {es : List Element} :
    Comprises (columnOf width cs.length) cs es ↔ ∃ ps, Spells width ps cs ∧ elementsOf ps = es := by
  constructor
  · exact fun h => h.exists_spells rfl hwidth
  · rintro ⟨ps, hps, rfl⟩
    have hnothing : Plain [] := nofun
    have h := hps.comprises_elementsFrom hnothing (by simpa using hwidth)
    rwa [List.length_nil, Nat.zero_add] at h

/-- A text comprises nothing exactly if it is blank. -/
theorem Comprises.eq_nil_iff {column : Nat} {es : List Element} (h : Comprises column cs es) :
    es = [] ↔ ∀ c ∈ cs, isBlank c = true := by
  cases h with
  | last => exact stretch_eq_nil_iff
  | @group text body rest mark e es =>
    constructor
    · intro hnil
      cases List.append_eq_nil_iff.mp hnil |>.2
    · intro hblank
      have hbracket : isBlank '[' = true := hblank '[' (by simp [Mark.group])
      exact absurd hbracket (by decide)

end Elements

/-! ### Weights -/

/-- What stands in front of the groups and the plain text of a sentence: nothing, or a weight and
the spaces and tabs behind it. -/
inductive Weighted : List Char → List Char → Option Float → Prop
  | absent {rest : List Char} : (∀ inner, rest ≠ '*' :: '[' :: inner) → Weighted [] rest none
  | present {body blanks rest : List Char} {value : Float} : Plain body →
      readPercentage body = .ok value → (∀ c ∈ blanks, isIndent c = true) →
      (∀ c ∈ rest.head?, isIndent c = false) →
      Weighted ('*' :: '[' :: (body ++ ']' :: blanks)) rest (some value)

section Weights

variable {s rest : List Char} {weight : Option Float}

/-- Spaces and tabs are skipped as far as they go. -/
theorem skipIndent_eq_iff {cs rest : List Char} : skipIndent cs = rest ↔
    ∃ blanks, cs = blanks ++ rest ∧ (∀ c ∈ blanks, isIndent c = true) ∧
      ∀ c ∈ rest.head?, isIndent c = false := by
  rw [skipIndent]
  constructor
  · rintro rfl
    refine ⟨cs.takeWhile isIndent, List.takeWhile_append_dropWhile.symm,
      fun c hc => List.mem_takeWhile_imp hc, fun c hc => ?_⟩
    have hhead := List.head?_dropWhile_not isIndent cs
    rw [Option.mem_def.mp hc] at hhead
    simpa using hhead
  · rintro ⟨blanks, rfl, hblanks, hrest⟩
    rw [List.dropWhile_append_of_pos hblanks]
    rcases rest with _ | ⟨c, rest⟩
    · rfl
    · rw [List.dropWhile_cons_of_neg (by simpa using hrest c rfl)]

theorem readWeight_of_none (h : ∀ inner, s ≠ '*' :: '[' :: inner) :
    readWeight s = .ok (none, s) := by
  unfold readWeight
  split
  · next inner => exact absurd rfl (h inner)
  · rfl

theorem readWeight_of_some {inner : List Char} :
    readWeight ('*' :: '[' :: inner)
      = match bracketBody (inner.length + 2) inner with
        | .error stop => .error stop
        | .ok (body, behind) =>
          match readPercentage body with
          | .error fault => .error ⟨fault, inner.length + 2⟩
          | .ok value => .ok (some value, skipIndent behind) := by
  show (bracketBody (inner.length + 2) inner >>= _) = _
  rcases bracketBody (inner.length + 2) inner with stop | ⟨body, behind⟩
  · rfl
  · show ((readPercentage body).mapError _ >>= _) = _
    rcases hvalue : readPercentage body with fault | value
    · simp only [hvalue]
      rfl
    · simp only [hvalue]
      rfl

theorem readWeight_eq_ok_iff :
    readWeight s = .ok (weight, rest) ↔
      ∃ front, s = front ++ rest ∧ Weighted front rest weight := by
  constructor
  · intro h
    by_cases hsome : ∃ inner, s = '*' :: '[' :: inner
    · obtain ⟨inner, rfl⟩ := hsome
      rw [readWeight_of_some] at h
      split at h
      · cases h
      · next body behind hread =>
        split at h
        · cases h
        · next value hvalue =>
          cases h
          obtain ⟨hbody, rfl⟩ := bracketBody_eq_ok_iff.mp hread
          obtain ⟨blanks, hbehind, hblanks, hrest⟩ := skipIndent_eq_iff.mp rfl
          refine ⟨_, ?_, .present hbody hvalue hblanks hrest⟩
          rw [List.cons_append, List.cons_append, List.append_assoc, List.cons_append, ← hbehind]
    · rw [not_exists] at hsome
      rw [readWeight_of_none hsome] at h
      cases h
      exact ⟨[], rfl, .absent hsome⟩
  · rintro ⟨front, rfl, h⟩
    cases h with
    | absent hnone => exact readWeight_of_none hnone
    | @present body blanks _ value hbody hvalue hblanks hrest =>
      have hread (opened : Nat) : bracketBody opened (body ++ ']' :: (blanks ++ rest))
          = .ok (body, blanks ++ rest) := bracketBody_eq_ok_iff.mpr ⟨hbody, rfl⟩
      have hskip : skipIndent (blanks ++ rest) = rest :=
        skipIndent_eq_iff.mpr ⟨blanks, rfl, hblanks, hrest⟩
      have hchars : '*' :: '[' :: (body ++ ']' :: blanks) ++ rest
          = '*' :: '[' :: (body ++ ']' :: (blanks ++ rest)) := by simp
      rw [hchars, readWeight_of_some, hread]
      simp only [hvalue, hskip]

/-- A weight is refused where it stands or at a bracket in it. -/
theorem left_of_readWeight_eq_error {stop : Stop} (h : readWeight s = .error stop) :
    1 ≤ stop.left ∧ stop.left ≤ s.length := by
  by_cases hsome : ∃ inner, s = '*' :: '[' :: inner
  · obtain ⟨inner, rfl⟩ := hsome
    rw [readWeight_of_some] at h
    rw [List.length_cons, List.length_cons]
    split at h
    · next hread =>
      cases h
      have hleft := left_of_bracketBody_eq_error hread
      omega
    · split at h
      · cases h
        exact ⟨Nat.succ_pos _, le_rfl⟩
      · cases h
  · rw [not_exists] at hsome
    rw [readWeight_of_none hsome] at h
    cases h

end Weights

/-! ### The theorem -/

/-- A sentence is read in two steps, and what the pieces make up must not be nothing. -/
theorem readSentence_eq (number width : Nat) (s : List Char) :
    readSentence number width s
      = match readWeight s with
        | .error stop => .error stop
        | .ok (weight, rest) =>
          match pieces width (s.take (s.length - rest.length)).getLast? rest with
          | .error stop => .error stop
          | .ok (ps, left) =>
            if elementsOf ps = [] then .error ⟨.emptySentence, s.length⟩
            else .ok (⟨elementsOf ps, weight, number⟩, left) := by
  show (readWeight s >>= _) = _
  rcases readWeight s with stop | ⟨weight, rest⟩
  · rfl
  · show (pieces width (s.take (s.length - rest.length)).getLast? rest >>= _) = _
    rcases hpieces : pieces width (s.take (s.length - rest.length)).getLast? rest with
      stop | ⟨ps, left⟩
    · simp only [hpieces]
      rfl
    · simp only [hpieces]
      rcases hsome : (elementsOf ps).isEmpty with _ | _
      · rw [if_neg (List.isEmpty_eq_false_iff.mp hsome)]
        show (if (elementsOf ps).isEmpty = true then _ else _) = _
        rw [hsome]
        rfl
      · rw [if_pos (List.isEmpty_iff.mp hsome)]
        show (if (elementsOf ps).isEmpty = true then _ else _) = _
        rw [hsome]
        rfl

theorem readSentence_eq_ok_iff {number width : Nat} {s left : List Char} {a : Alternative} :
    readSentence number width s = .ok (a, left) ↔
      left = [] ∧ a.line = number ∧ a.elements ≠ [] ∧ ∃ front rest ps, s = front ++ rest ∧
        Weighted front rest a.weight ∧ Spells width ps rest ∧ elementsOf ps = a.elements := by
  rw [readSentence_eq]
  constructor
  · intro h
    split at h
    · cases h
    · next weight rest hweight =>
      obtain ⟨front, hs, hweighted⟩ := readWeight_eq_ok_iff.mp hweight
      split at h
      · cases h
      · next ps left hpieces =>
        obtain ⟨rfl, hspells⟩ := spells_of_pieces hpieces
        split at h
        · cases h
        · next hsome =>
          cases h
          exact ⟨rfl, rfl, hsome, front, rest, ps, hs, hweighted, hspells, rfl⟩
  · rintro ⟨rfl, rfl, hsome, front, rest, ps, hs, hweighted, hspells, hmake⟩
    have hpieces {before : Option Char} : pieces width before rest = .ok (ps, []) :=
      pieces_eq_ok_iff.mpr ⟨rfl, hspells⟩
    rw [readWeight_eq_ok_iff.mpr ⟨front, hs, hweighted⟩]
    simp only [hpieces]
    rw [hmake, if_neg hsome]

theorem left_of_readSentence_eq_error {number width : Nat} {s : List Char} {stop : Stop}
    (hs : s ≠ []) (h : readSentence number width s = .error stop) :
    1 ≤ stop.left ∧ stop.left ≤ s.length := by
  rw [readSentence_eq] at h
  split at h
  · next hweight =>
    cases h
    exact left_of_readWeight_eq_error hweight
  · next weight rest hweight =>
    obtain ⟨front, rfl, -⟩ := readWeight_eq_ok_iff.mp hweight
    split at h
    · next hpieces =>
      cases h
      obtain ⟨hpos, hle⟩ := left_of_pieces_eq_error hpieces
      exact ⟨hpos, by rw [List.length_append]; omega⟩
    · split at h
      · cases h
        exact ⟨List.length_pos_iff.mpr hs, le_rfl⟩
      · cases h

/-- **A sentence is accepted** exactly if its brackets fit behind its weight and it is not blank
there.  Nothing is left of it, and its elements are those that the text comprises, each where it
stands.  Any other sentence is refused at one of its characters. -/
theorem sentences_are_read_whole (number indent : Nat) {s : List Char} (hs : s ≠ []) :
    ((∃ a left, readSentence number (indent + s.length) s = .ok (a, left)) ↔
      ∃ front rest weight, s = front ++ rest ∧ Weighted front rest weight ∧ BracketsFit rest ∧
        ∃ c ∈ rest, isBlank c = false) ∧
    (∀ a left, readSentence number (indent + s.length) s = .ok (a, left) →
      left = [] ∧ a.line = number ∧ ∃ front rest, s = front ++ rest ∧
        Weighted front rest a.weight ∧
        ∀ es, Comprises (indent + front.length + 1) rest es ↔ es = a.elements) ∧
    (∀ stop, readSentence number (indent + s.length) s = .error stop →
      indent + 1 ≤ columnOf (indent + s.length) stop.left ∧
        columnOf (indent + s.length) stop.left ≤ indent + s.length) := by
  -- the rest is at the end of the line, and so it starts in this column
  have hcolumn {front rest : List Char} (hcut : s = front ++ rest) :
      indent + front.length + 1 = columnOf (indent + s.length) rest.length ∧
        rest.length ≤ indent + s.length := by
    rw [hcut, List.length_append, columnOf]
    omega
  refine ⟨⟨?accepted, ?accepts⟩, ?read, ?refused⟩
  case accepted =>
    rintro ⟨a, left, h⟩
    obtain ⟨-, -, hsome, front, rest, ps, hcut, hweighted, hspells, hmake⟩ :=
      readSentence_eq_ok_iff.mp h
    refine ⟨front, rest, a.weight, hcut, hweighted, hspells.bracketsFit, ?_⟩
    have hcomprises := (comprises_iff (hcolumn hcut).2).mpr ⟨ps, hspells, hmake⟩
    have hblank := mt hcomprises.eq_nil_iff.mpr hsome
    push Not at hblank
    simpa using hblank
  case accepts =>
    rintro ⟨front, rest, weight, hcut, hweighted, hfit, c, hc, hword⟩
    obtain ⟨ps, hspells⟩ : ∃ ps, Spells (indent + s.length) ps rest := exists_spells_iff.mpr hfit
    have hcomprises := (comprises_iff (hcolumn hcut).2).mpr ⟨ps, hspells, rfl⟩
    have hsome : elementsOf ps ≠ [] := by
      intro hnone
      rw [hcomprises.eq_nil_iff.mp hnone c hc] at hword
      cases hword
    exact ⟨⟨elementsOf ps, weight, number⟩, [], readSentence_eq_ok_iff.mpr
      ⟨rfl, rfl, hsome, front, rest, ps, hcut, hweighted, hspells, rfl⟩⟩
  case read =>
    intro a left h
    obtain ⟨hleft, hline, -, front, rest, ps, hcut, hweighted, hspells, hmake⟩ :=
      readSentence_eq_ok_iff.mp h
    refine ⟨hleft, hline, front, rest, hcut, hweighted, fun es => ?_⟩
    rw [(hcolumn hcut).1, comprises_iff (hcolumn hcut).2]
    constructor
    · -- no other pieces spell the text, so nothing else can be made of it
      rintro ⟨ps', hspells', rfl⟩
      rw [hspells'.unique hspells, hmake]
    · rintro rfl
      exact ⟨ps, hspells, hmake⟩
  case refused =>
    intro stop h
    obtain ⟨hpos, hle⟩ := left_of_readSentence_eq_error hs h
    rw [columnOf]
    omega

/-- The sentence `hi @[city]`. -/
def toCity : List Char := ['h', 'i', ' ', '@', '[', 'c', 'i', 't', 'y', ']']

/-- With three characters of indentation, the slot stands in the column of its mark, which is the
seventh of the line. -/
theorem sentence_of_city :
    toCity ≠ [] ∧
      ∃ a, readSentence 2 13 toCity = .ok (a, []) ∧ a.weight = none ∧
        a.elements = [.literal "hi" false, .reference ⟨.slot, "city", none, false, 7⟩] := by
  have hsome : toCity ≠ [] := List.cons_ne_nil _ _
  have hnothing : Plain [] := List.forall_mem_nil _
  have hwords : Plain ['h', 'i', ' '] := by simp [Plain, isPlain]
  have hbody : Plain ['c', 'i', 't', 'y'] := by simp [Plain, isPlain]
  have hname : Label.read ['c', 'i', 't', 'y'] = .ok ⟨"city", none, false⟩ := by
    decide +kernel
  have hchars : toCity = ['h', 'i', ' '] ++ (Mark.group .slot ['c', 'i', 't', 'y'] ++ []) := rfl
  have hfit : BracketsFit toCity := by
    rw [hchars, bracketsFit_append_iff (bracketsFit_of_plain hwords).closed,
      bracketsFit_group_append_iff hbody]
    · exact ⟨bracketsFit_of_plain hwords, ⟨_, hname⟩, bracketsFit_of_plain hnothing⟩
    · rintro front mark rest - ⟨⟩
  have hslot : Mark.Means 7 ['c', 'i', 't', 'y'] (.reference ⟨.slot, "city", none, false, 7⟩)
      .slot := ⟨_, hname, rfl⟩
  have hstretch : stretch ['h', 'i', ' '] = [.literal "hi" false] := by decide +kernel
  have hbehind : Comprises 14 [] (stretch []) := .last hnothing
  have hcomprises : Comprises 4 toCity
      [.literal "hi" false, .reference ⟨.slot, "city", none, false, 7⟩] := by
    have hgroup := Comprises.group hwords hbody hslot hbehind
    rw [hstretch] at hgroup
    exact hgroup
  have hweightless : Weighted [] toCity none := .absent (by rintro inner ⟨⟩)
  obtain ⟨⟨-, haccepts⟩, hread, -⟩ := sentences_are_read_whole 2 3 hsome
  obtain ⟨⟨elements, weight, line⟩, left, h⟩ := haccepts
    ⟨[], toCity, none, rfl, hweightless, hfit, 'h', List.mem_cons_self, rfl⟩
  obtain ⟨rfl, -, front, rest, hcut, hweighted, helements⟩ := hread _ _ h
  refine ⟨hsome, _, h, ?_⟩
  cases hweighted with
  | absent =>
    obtain rfl : toCity = rest := hcut
    exact ⟨rfl, ((helements _).mp hcomprises).symm⟩
  | present => cases hcut

end IntentGrammar
