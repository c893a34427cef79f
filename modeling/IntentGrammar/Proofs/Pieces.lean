import IntentGrammar.Proofs.Brackets
import Mathlib.Data.List.TakeWhile

/-!
# Pieces of a sentence

The pieces of a sentence are read as long as one starts where reading has come to.  What is left
where none starts is dropped, so it matters that nothing is left: a character is plain text or the
mark of a group, or it is refused (`eq_nil_of_readPiece?_eq_none`).

**Pieces that are read spell the text** (`pieces_eq_ok_iff`), and there are such pieces exactly if
its brackets fit (`exists_spells_iff`).
-/

namespace IntentGrammar

open Text

/-! ### Between brackets -/

theorem bracketBody_eq_ok_iff {opened : Nat} {cs body rest : List Char} :
    bracketBody opened cs = .ok (body, rest) ↔ Plain body ∧ cs = body ++ ']' :: rest := by
  constructor
  · intro h
    have hcut := List.takeWhile_append_dropWhile (p := isPlain) (l := cs)
    rw [bracketBody] at h
    split at h
    · cases h
    · next c tail hdrop =>
      split at h
      · next hc =>
        cases h
        rw [hdrop, hc] at hcut
        exact ⟨fun c hc => List.mem_takeWhile_imp hc, hcut.symm⟩
      · cases h
  · rintro ⟨hbody, rfl⟩
    have hdrop : (body ++ ']' :: rest).dropWhile isPlain = ']' :: rest := by
      rw [List.dropWhile_append_of_pos hbody]
      rfl
    have htake : (body ++ ']' :: rest).takeWhile isPlain = body := by
      rw [List.takeWhile_append_of_pos hbody]
      exact List.append_nil body
    rw [bracketBody, hdrop, htake]
    rfl

/-- A bracket that is not closed is reported where it opens or at the bracket in its way. -/
theorem left_of_bracketBody_eq_error {opened : Nat} {cs : List Char} {stop : Stop}
    (h : bracketBody opened cs = .error stop) :
    stop.left = opened ∨ 1 ≤ stop.left ∧ stop.left ≤ cs.length := by
  have hle := length_dropWhile_le isPlain cs
  rw [bracketBody] at h
  split at h
  · cases h
    exact .inl rfl
  · next c tail hdrop =>
    rw [hdrop] at hle
    split at h
    · cases h
    · cases h
      exact .inr ⟨Nat.succ_pos _, hle⟩

/-! ### One piece -/

/-- The element that a group is. -/
def Piece.element? : Piece → Option Element
  | text _ => none
  | segment words => some (.literal (String.ofList words) true)
  | reference r => some (.reference r)

/-- The element that a group stands for whose mark is in a column. -/
def Mark.Means (column : Nat) (body : List Char) (e : Element) : Mark → Prop
  | .alias => ∃ label, Label.read body = .ok label ∧
      e = .reference ⟨.alias, label.name, label.variation, label.optional, column⟩
  | slot => ∃ label, Label.read body = .ok label ∧
      e = .reference ⟨.slot, label.name, label.variation, label.optional, column⟩
  | optional => (∃ c ∈ body, isBlank c = false) ∧ e = .literal (String.ofList (trim body)) true

theorem trim_eq_nil_iff {cs : List Char} : trim cs = [] ↔ ∀ c ∈ cs, isBlank c = true := by
  have hstart : trim cs = [] ↔ ∀ c ∈ trimStart cs, isBlank c = true := by
    rw [trim, trimEnd, List.reverse_eq_nil_iff, List.dropWhile_eq_nil_iff]
    simp
  have hsplit := List.takeWhile_append_dropWhile (p := isBlank) (l := cs)
  rw [hstart, trimStart]
  constructor
  · intro h c hc
    rw [← hsplit] at hc
    rcases List.mem_append.mp hc with hc | hc
    · exact List.mem_takeWhile_imp hc
    · exact h c hc
  · intro h c hc
    exact h c ((List.dropWhile_sublist isBlank).subset hc)

theorem trim_isEmpty_eq_false_iff {cs : List Char} :
    (trim cs).isEmpty = false ↔ ∃ c ∈ cs, isBlank c = false := by
  rw [List.isEmpty_eq_false_iff, Ne, trim_eq_nil_iff]
  push Not
  simp

namespace Mark

variable {mark : Mark} {column : Nat} {body : List Char}

/-- What is read between the brackets of a group is the element that the group stands for. -/
theorem means_iff {e : Element} :
    mark.Means column body e ↔
      ∃ piece, mark.read column body = .ok piece ∧ piece.element? = some e := by
  have hreference (kind : Kind) : (∃ label, Label.read body = .ok label ∧
      e = .reference ⟨kind, label.name, label.variation, label.optional, column⟩) ↔
        ∃ piece, readReference kind column body = .ok piece ∧ piece.element? = some e := by
    rw [readReference]
    rcases Label.read body with fault | label
    · constructor
      · rintro ⟨label, hlabel, -⟩
        cases hlabel
      · rintro ⟨piece, hpiece, -⟩
        cases hpiece
    · constructor
      · rintro ⟨label', hlabel, rfl⟩
        cases hlabel
        exact ⟨_, rfl, rfl⟩
      · rintro ⟨piece, hpiece, he⟩
        cases hpiece
        exact ⟨label, rfl, (Option.some.inj he).symm⟩
  cases mark with
  | «alias» => exact hreference .alias
  | slot => exact hreference .slot
  | optional =>
    rw [Means, read]
    rcases hempty : (trim body).isEmpty with _ | _
    · rw [if_neg Bool.false_ne_true, and_iff_right (trim_isEmpty_eq_false_iff.mp hempty)]
      constructor
      · rintro rfl
        exact ⟨_, rfl, rfl⟩
      · rintro ⟨piece, hpiece, he⟩
        cases hpiece
        exact (Option.some.inj he).symm
    · rw [if_pos rfl]
      constructor
      · rintro ⟨hwords, -⟩
        rw [trim_isEmpty_eq_false_iff.mpr hwords] at hempty
        cases hempty
      · rintro ⟨piece, hpiece, -⟩
        cases hpiece

/-- Every group that is read is an element. -/
theorem exists_element?_of_read {piece : Piece} (h : mark.read column body = .ok piece) :
    ∃ e, piece.element? = some e := by
  have hreference (kind : Kind) (h : readReference kind column body = .ok piece) :
      ∃ e, piece.element? = some e := by
    rw [readReference] at h
    rcases hlabel : Label.read body with fault | label
    · rw [hlabel] at h
      cases h
    · rw [hlabel] at h
      cases h
      exact ⟨_, rfl⟩
  cases mark with
  | «alias» => exact hreference .alias h
  | slot => exact hreference .slot h
  | optional =>
    rw [read] at h
    split at h
    · cases h
    · cases h
      exact ⟨_, rfl⟩

/-- A mark allows what can be read. -/
theorem allows_iff (column : Nat) :
    mark.Allows body ↔ ∃ piece, mark.read column body = .ok piece := by
  have hmeans : mark.Allows body ↔ ∃ e, mark.Means column body e := by
    cases mark with
    | «alias» | slot =>
      constructor
      · rintro ⟨label, hlabel⟩
        exact ⟨_, label, hlabel, rfl⟩
      · rintro ⟨e, label, hlabel, -⟩
        exact ⟨label, hlabel⟩
    | optional =>
      constructor
      · exact fun hwords => ⟨_, hwords, rfl⟩
      · exact fun ⟨_, hwords, _⟩ => hwords
  rw [hmeans]
  constructor
  · rintro ⟨e, he⟩
    obtain ⟨piece, hpiece, -⟩ := means_iff.mp he
    exact ⟨piece, hpiece⟩
  · rintro ⟨piece, hpiece⟩
    obtain ⟨e, he⟩ := exists_element?_of_read hpiece
    exact ⟨e, means_iff.mpr ⟨piece, hpiece, he⟩⟩

end Mark

theorem isPlain_of_mem_sigils {c : Char} (hc : c ∈ sigils) : isPlain c = true := by
  simp only [sigils, List.mem_cons, List.not_mem_nil, or_false] at hc
  rcases hc with rfl | rfl | rfl | rfl | rfl <;> rfl

theorem isText_iff {c : Char} {rest : List Char} :
    isText c rest = true ↔ isPlain c = true ∧ (c ∈ sigils → rest.head? ≠ some '[') := by
  rw [isText]
  by_cases hc : c ∈ sigils
  · simp [hc, isPlain_of_mem_sigils hc]
  · simp [hc]

theorem Mark.sigil_mem_sigils (mark : Mark) : mark.sigil ∈ sigils := by cases mark <;> decide

theorem open?_group (mark : Mark) (body rest : List Char) :
    Mark.open? mark.sigil ('[' :: (body ++ ']' :: rest)) = some (mark, body ++ ']' :: rest) :=
  Mark.open?_eq_some_iff.mpr ⟨rfl, Mark.ofChar?_eq_some_iff.mpr rfl⟩

section Reading

variable {width : Nat} {before : Option Char} {cs rest : List Char} {piece : Piece}

theorem readPiece?_text {c : Char} (hc : isPlain c = true) (hrest : rest.head? ≠ some '[') :
    readPiece? width before (c :: rest) = .ok (some (.text c, rest)) := by
  rw [readPiece?, if_pos (isText_iff.mpr ⟨hc, fun _ => hrest⟩)]

theorem readPiece?_group {mark : Mark} {body : List Char} (hbody : Plain body)
    (hpiece : mark.read (columnOf width (mark.group body ++ rest).length) body = .ok piece) :
    readPiece? width before (mark.group body ++ rest) = .ok (some (piece, rest)) := by
  have hchars : mark.group body ++ rest = mark.sigil :: '[' :: (body ++ ']' :: rest) := by
    simp [Mark.group]
  have htext : ¬ isText mark.sigil ('[' :: (body ++ ']' :: rest)) = true := by
    rw [isText_iff]
    exact fun h => h.2 mark.sigil_mem_sigils rfl
  have hread (opened : Nat) : bracketBody opened (body ++ ']' :: rest) = .ok (body, rest) :=
    bracketBody_eq_ok_iff.mpr ⟨hbody, rfl⟩
  rw [hchars, List.length_cons] at hpiece
  rw [hchars, readPiece?, if_neg htext, open?_group]
  simp only [hread, hpiece]

/-- What is read is a character of plain text, or a group. -/
theorem eq_of_readPiece?_eq_some (h : readPiece? width before cs = .ok (some (piece, rest))) :
    (∃ c, isPlain c = true ∧ cs = c :: rest ∧ piece = .text c) ∨
      ∃ mark body, Plain body ∧ cs = Mark.group mark body ++ rest ∧
        mark.read (columnOf width cs.length) body = .ok piece := by
  rcases cs with _ | ⟨c, tail⟩
  · cases h
  · rw [readPiece?] at h
    split at h
    · next htext =>
      cases h
      exact .inl ⟨c, (isText_iff.mp htext).1, rfl, rfl⟩
    · right
      split at h
      · next mark inner hopen =>
        obtain ⟨rfl, hmark⟩ := Mark.open?_eq_some_iff.mp hopen
        obtain rfl := Mark.ofChar?_eq_some_iff.mp hmark
        split at h
        · cases h
        · next body after hread =>
          obtain ⟨hbody, rfl⟩ := bracketBody_eq_ok_iff.mp hread
          split at h
          · cases h
          · next piece hpiece =>
            cases h
            exact ⟨mark, body, hbody, by simp [Mark.group], hpiece⟩
      · split at h
        · cases h
        · cases h

/-- Brackets that open no group are refused. -/
theorem misplaced?_ne_none {c : Char} (htext : ¬ isText c rest = true)
    (hopen : Mark.open? c rest = none) : misplaced? before c rest ≠ none := by
  rw [isText_iff, not_and_or] at htext
  rcases htext with hc | hsigil
  · -- the character is a bracket itself
    rcases isPlain_eq_false_iff.mp (Bool.eq_false_iff.mpr hc) with rfl | rfl
    · cases before <;> simp [misplaced?]
    · simp [misplaced?]
  · -- a bracket follows, but the character before it is not the mark of a group
    push Not at hsigil
    obtain ⟨hc, hrest⟩ := hsigil
    rcases rest with _ | ⟨d, inner⟩
    · cases hrest
    · obtain rfl : d = '[' := Option.some.inj hrest
      have hmark : Mark.ofChar? c = none := by
        rcases hmark : Mark.ofChar? c with _ | mark
        · rfl
        · rw [Mark.open?_eq_some_iff.mpr ⟨rfl, hmark⟩] at hopen
          cases hopen
      simp only [sigils, List.mem_cons, List.not_mem_nil, or_false] at hc
      rcases hc with rfl | rfl | rfl | rfl | rfl
      · cases hmark
      · cases hmark
      · simp [misplaced?]
      · simp [misplaced?]
      · cases hmark

/-- **A piece starts everywhere**, or the text is refused there, or it is at its end. -/
theorem eq_nil_of_readPiece?_eq_none (h : readPiece? width before cs = .ok none) : cs = [] := by
  rcases cs with _ | ⟨c, rest⟩
  · rfl
  · rw [readPiece?] at h
    split at h
    · cases h
    · next htext =>
      split at h
      · split at h
        · cases h
        · split at h
          · cases h
          · cases h
      · next hopen =>
        split at h
        · cases h
        · next hmisplaced => exact absurd hmisplaced (misplaced?_ne_none htext hopen)

/-- A text is refused at one of its characters. -/
theorem left_of_readPiece?_eq_error {stop : Stop} (h : readPiece? width before cs = .error stop) :
    1 ≤ stop.left ∧ stop.left ≤ cs.length := by
  rcases cs with _ | ⟨c, rest⟩
  · cases h
  · rw [readPiece?] at h
    rw [List.length_cons]
    split at h
    · cases h
    · split at h
      · next mark inner hopen =>
        obtain ⟨rfl, -⟩ := Mark.open?_eq_some_iff.mp hopen
        split at h
        · next stop hread =>
          cases h
          rcases left_of_bracketBody_eq_error hread with hleft | ⟨hpos, hle⟩
          · omega
          · exact ⟨hpos, by rw [List.length_cons]; omega⟩
        · split at h
          · cases h
            exact ⟨Nat.succ_pos _, le_rfl⟩
          · cases h
      · split at h
        · cases h
          exact ⟨Nat.succ_pos _, le_rfl⟩
        · cases h

end Reading

/-! ### All pieces -/

/-- The pieces spell the text, which is at the end of a line of so many characters. -/
inductive Spells (width : Nat) : List Piece → List Char → Prop
  | nil : Spells width [] []
  | text {c : Char} {ps : List Piece} {cs : List Char} :
      isPlain c = true → Spells width ps cs → Spells width (.text c :: ps) (c :: cs)
  | group {mark : Mark} {body cs : List Char} {piece : Piece} {ps : List Piece} :
      Plain body → mark.read (columnOf width (mark.group body ++ cs).length) body = .ok piece →
      Spells width ps cs → Spells width (piece :: ps) (mark.group body ++ cs)

section Pieces

variable {width : Nat} {before : Option Char} {cs rest : List Char} {ps : List Piece}

/-- No text that is spelled starts with a bracket. -/
theorem Spells.head?_ne (h : Spells width ps cs) : cs.head? ≠ some '[' := by
  cases h with
  | nil => nofun
  | text hc => rintro ⟨⟩; cases hc
  | @group mark => exact fun heq => mark.sigil_ne_of_not_plain rfl (Option.some.inj heq).symm

theorem pieces_of_some {piece : Piece} (h : readPiece? width before cs = .ok (some (piece, rest))) :
    pieces width before cs
      = (pieces width (cs.take (cs.length - rest.length)).getLast? rest).map
          fun (ps, left) => (piece :: ps, left) := by
  rw [pieces]
  split
  · next h' => rw [h] at h'; cases h'
  · next h' => rw [h] at h'; cases h'
  · next h' => rw [h] at h'; cases h'; rfl

theorem pieces_of_none (h : readPiece? width before cs = .ok none) :
    pieces width before cs = .ok ([], cs) := by
  rw [pieces]
  split
  · next h' => rw [h] at h'; cases h'
  · rfl
  · next h' => rw [h] at h'; cases h'

theorem pieces_of_error {stop : Stop} (h : readPiece? width before cs = .error stop) :
    pieces width before cs = .error stop := by
  rw [pieces]
  split
  · next h' => rw [h] at h'; cases h'; rfl
  · next h' => rw [h] at h'; cases h'
  · next h' => rw [h] at h'; cases h'

/-- Pieces that are read spell the text, and all of it. -/
theorem spells_of_pieces (h : pieces width before cs = .ok (ps, rest)) :
    rest = [] ∧ Spells width ps cs := by
  induction hn : cs.length using Nat.strongRecOn generalizing before cs ps with
  | ind n ih =>
    rcases hread : readPiece? width before cs with stop | _ | ⟨piece, tail⟩
    · rw [pieces_of_error hread] at h
      cases h
    · rw [pieces_of_none hread] at h
      obtain rfl := eq_nil_of_readPiece?_eq_none hread
      cases h
      exact ⟨rfl, .nil⟩
    · -- what is behind the piece is shorter, and the pieces of it are all that is left of it
      rw [pieces_of_some hread] at h
      rcases htail : pieces width (cs.take (cs.length - tail.length)).getLast? tail with
        stop | ⟨qs, left⟩
      · rw [htail] at h
        cases h
      · rw [htail] at h
        cases h
        obtain ⟨rfl, hspells⟩ := ih tail.length (hn ▸ length_lt_of_readPiece? hread) htail rfl
        refine ⟨rfl, ?_⟩
        rcases eq_of_readPiece?_eq_some hread with
          ⟨c, hc, rfl, rfl⟩ | ⟨mark, body, hbody, rfl, hpiece⟩
        · exact .text hc hspells
        · exact .group hbody hpiece hspells

/-- **Pieces are read** from a text exactly if they spell it, and then nothing of it is left. -/
theorem pieces_eq_ok_iff :
    pieces width before cs = .ok (ps, rest) ↔ rest = [] ∧ Spells width ps cs := by
  refine ⟨spells_of_pieces, ?_⟩
  rintro ⟨rfl, h⟩
  induction h generalizing before with
  | nil => exact pieces_of_none rfl
  | text hc hrest ih =>
    rw [pieces_of_some (readPiece?_text hc hrest.head?_ne), ih]
    rfl
  | group hbody hpiece _ ih =>
    rw [pieces_of_some (readPiece?_group hbody hpiece), ih]
    rfl

/-- A text is spelled by no other pieces. -/
theorem Spells.unique {ps' : List Piece} (h : Spells width ps cs) (h' : Spells width ps' cs) :
    ps = ps' := by
  have hread : pieces width none cs = .ok (ps, []) := pieces_eq_ok_iff.mpr ⟨rfl, h⟩
  have hread' : pieces width none cs = .ok (ps', []) := pieces_eq_ok_iff.mpr ⟨rfl, h'⟩
  exact (Prod.mk.inj (Except.ok.inj (hread.symm.trans hread'))).1

/-- A text is refused at one of its characters. -/
theorem left_of_pieces_eq_error {stop : Stop} (h : pieces width before cs = .error stop) :
    1 ≤ stop.left ∧ stop.left ≤ cs.length := by
  induction hn : cs.length using Nat.strongRecOn generalizing before cs with
  | ind n ih =>
    rcases hread : readPiece? width before cs with stop' | _ | ⟨piece, tail⟩
    · rw [pieces_of_error hread] at h
      cases h
      exact hn ▸ left_of_readPiece?_eq_error hread
    · rw [pieces_of_none hread] at h
      cases h
    · rw [pieces_of_some hread] at h
      have hlt : tail.length < n := hn ▸ length_lt_of_readPiece? hread
      rcases htail : pieces width (cs.take (cs.length - tail.length)).getLast? tail with
        stop' | ⟨qs, left⟩
      · rw [htail] at h
        cases h
        obtain ⟨hpos, hle⟩ := ih tail.length hlt htail rfl
        exact ⟨hpos, by omega⟩
      · rw [htail] at h
        cases h

/-- The brackets of a text that is spelled fit. -/
theorem Spells.bracketsFit (h : Spells width ps cs) : BracketsFit cs := by
  induction h with
  | nil => exact bracketsFit_of_plain nofun
  | text hc hrest ih => exact (bracketsFit_cons_iff hc hrest.head?_ne).mpr ih
  | @group mark body cs piece ps hbody hpiece hrest ih =>
    exact (bracketsFit_group_append_iff hbody).mpr ⟨(mark.allows_iff _).mpr ⟨piece, hpiece⟩, ih⟩

/-- **A text is spelled** by pieces exactly if its brackets fit. -/
theorem exists_spells_iff : (∃ ps, Spells width ps cs) ↔ BracketsFit cs := by
  refine ⟨fun ⟨_, h⟩ => h.bracketsFit, fun h => ?_⟩
  induction hn : cs.length using Nat.strongRecOn generalizing cs with
  | ind n ih =>
    rcases cs with _ | ⟨c, rest⟩
    · exact ⟨[], .nil⟩
    · have hc : isPlain c = true := by
        -- the first character is no bracket, for nothing is in front of it
        by_contra hc
        rcases isPlain_eq_false_iff.mp (Bool.eq_false_iff.mpr hc) with rfl | rfl
        · obtain ⟨front, mark, heq⟩ := h.marked [] rest rfl
          cases List.append_eq_nil_iff.mp heq.symm |>.2
        · obtain ⟨front, body, heq, -⟩ := h.opened [] rest rfl
          cases List.append_eq_nil_iff.mp heq.symm |>.2
      by_cases hrest : rest.head? = some '['
      · rcases rest with _ | ⟨d, inner⟩
        · cases hrest
        · -- the first character is the mark of the bracket, and the next bracket closes it
          obtain rfl : d = '[' := Option.some.inj hrest
          obtain ⟨front, mark, heq⟩ := h.marked [c] inner rfl
          obtain ⟨-, hmark⟩ := List.append_inj' ((List.nil_append [c]).trans heq) rfl
          obtain rfl := List.singleton_inj.mp hmark
          obtain ⟨body, tail, rfl, hbody⟩ := h.closed [mark.sigil] inner rfl
          have hgroup : mark.sigil :: '[' :: (body ++ ']' :: tail) = mark.group body ++ tail := by
            simp [Mark.group]
          rw [hgroup] at h hn ⊢
          obtain ⟨hallows, htail⟩ := (bracketsFit_group_append_iff hbody).mp h
          obtain ⟨piece, hpiece⟩ :=
            (mark.allows_iff (columnOf width (mark.group body ++ tail).length)).mp hallows
          obtain ⟨ps, hps⟩ := ih tail.length (by rw [← hn, List.length_append]; simp [Mark.group])
            htail rfl
          exact ⟨piece :: ps, .group hbody hpiece hps⟩
      · obtain ⟨ps, hps⟩ := ih rest.length (by rw [← hn, List.length_cons]; omega)
          ((bracketsFit_cons_iff hc hrest).mp h) rfl
        exact ⟨.text c :: ps, .text hc hps⟩

end Pieces

end IntentGrammar
