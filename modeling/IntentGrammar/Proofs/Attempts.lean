import IntentGrammar.Proofs.Positions
import IntentGrammar.Proofs.Trials

/-!
# Sentences by trial

A sentence that is read by trial starts with a weight or without one, and goes on as long as one of
several kinds of piece can be read: a run of plain text, a reference, a part that may be left out.
The last kind is no piece at all: it is tried for a bracket that does not fit, and ends with a
fault.

The pieces are read in other portions than without trials, a whole run of plain text at once, but
they are the same (`Trial.many_portion_eq`), and so are the sentences (**`Trial.sentence_eq`**).
-/

namespace IntentGrammar

open Text

namespace Trial

/-! ### Readers of sentences -/

section Readers

variable {α : Type}

/-- A certain text. -/
def tag (expected : List Char) : Reader (List Char) := fun cs =>
  if expected.isPrefixOf cs then .ok (expected, cs.drop expected.length) else mismatch "Tag" cs

/-- Nothing, if something else does not stand here. -/
def absent (r : Reader α) : Reader Unit := fun cs =>
  match (r cs).outcome with
  | .ok none => .ok ((), cs)
  | .ok (some _) => mismatch "Not" cs
  | .error stop => .error (.fault stop)

/-- Whatever there is, as long as it can be read.  A reader that reads nothing would be tried
forever, so it gives way. -/
def many (r : Reader α) (cs : List Char) : Attempt (List α × List Char) :=
  match (r cs).outcome with
  | .error stop => .error (.fault stop)
  | .ok none => .ok ([], cs)
  | .ok (some (a, rest)) =>
    if rest.length < cs.length then do
      let (as, rest) ← many r rest
      return (a :: as, rest)
    else mismatch "Many" cs
termination_by cs.length

/-- The text that something is read from, in place of what it says. -/
def recognize (r : Reader α) : Reader (List Char) := fun cs => do
  let (_, rest) ← r cs
  return (cs.take (cs.length - rest.length), rest)

/-- A character that is plain text whatever follows. -/
def isOrdinary (c : Char) : Bool := isPlain c && c ∉ sigils

/-- A run of such characters, or a character that would have a meaning in front of a bracket. -/
def textPart : Reader (List Char) :=
  alt [someRun "IsNot" isOrdinary,
    recognize fun cs => do
      let (c, rest) ← satisfying "OneOf" (· ∈ sigils) cs
      let (_, rest) ← absent (char '[') rest
      return (c, rest)]

/-- A run of plain text. -/
def literalRun : Reader (List Char) := recognize fun cs => do
  let (part, rest) ← textPart cs
  let (parts, rest) ← many textPart rest
  return (part :: parts, rest)

/-- A reference to a definition of a kind. -/
def referenceTo (width : Nat) (kind : Kind) : Reader Piece := fun cs => do
  let (_, rest) ← char kind.sigil cs
  let (_, rest) ← char '[' rest
  let (body, rest) ← bracketText cs.length rest
  let piece ← (readReference kind (columnOf width cs.length) body).mapError
    fun fault => .fault ⟨fault, cs.length⟩
  return (piece, rest)

/-- A part that may be left out. -/
def segment : Reader Piece := fun cs => do
  let (_, rest) ← tag ['?', '['] cs
  let (body, rest) ← bracketText cs.length rest
  if (trim body).isEmpty then fail .emptySegment cs.length else return (.segment (trim body), rest)

/-- What a mark in front of a bracket makes of it. -/
def group (width : Nat) : Mark → Reader Piece
  | .alias => referenceTo width .alias
  | .slot => referenceTo width .slot
  | .optional => segment

/-- No piece, but what is wrong with a bracket that does not fit in a sentence. -/
def unfit (sentence : List Char) : Reader Piece
  | [] => mismatch "Char" []
  | c :: rest =>
    match misplaced? (sentence.take (sentence.length - (c :: rest).length)).getLast? c rest with
    | some fault => fail fault (c :: rest).length
    | none => mismatch "Char" (c :: rest)

/-- A single piece. -/
def one (r : Reader Piece) : Reader (List Piece) := fun cs => do
  let (piece, rest) ← r cs
  return ([piece], rest)

/-- The pieces of a run of plain text. -/
def plain : Reader (List Piece) := fun cs => do
  let (text, rest) ← literalRun cs
  return (text.map .text, rest)

/-- The pieces of a sentence that are read at once. -/
def portion (width : Nat) (sentence : List Char) : Reader (List Piece) :=
  alt [plain, one (group width .alias), one (group width .slot), one (group width .optional),
    one (unfit sentence)]

/-- The weight of a sentence. -/
def weight : Reader Float := fun cs => do
  let (_, rest) ← tag ['*', '['] cs
  let (body, rest) ← bracketText cs.length rest
  let value ← (readPercentage body).mapError fun fault => .fault ⟨fault, cs.length⟩
  let (_, rest) ← gap rest
  return (value, rest)

/-- A sentence on a line of the given number and width. -/
def sentence (number width : Nat) : Reader Alternative := fun cs => do
  let (weight, rest) ← opt weight cs
  let (portions, left) ← many (portion width cs) rest
  let elements := elementsOf portions.flatten
  if elements.isEmpty then fail .emptySentence cs.length
  else return ({ elements, weight, line := number }, left)

end Readers

/-! ### Plain text -/

/-- The longest stretch of plain text that a text starts with, and what follows it. -/
def textRun : List Char → List Char × List Char
  | [] => ([], [])
  | c :: rest =>
    if isText c rest then (c :: (textRun rest).1, (textRun rest).2) else ([], c :: rest)

section Runs

variable {c : Char} {cs rest : List Char}

theorem textRun_of_pos (h : isText c rest = true) :
    textRun (c :: rest) = (c :: (textRun rest).1, (textRun rest).2) := by
  rw [textRun, if_pos h]

theorem textRun_of_neg (h : ¬isText c rest = true) : textRun (c :: rest) = ([], c :: rest) := by
  rw [textRun, if_neg h]

theorem textRun_append (cs : List Char) : (textRun cs).1 ++ (textRun cs).2 = cs := by
  induction cs with
  | nil => rfl
  | cons c rest ih =>
    by_cases h : isText c rest = true
    · rw [textRun_of_pos h, List.cons_append, ih]
    · rw [textRun_of_neg h]
      rfl

theorem isText_of_isOrdinary (h : isOrdinary c = true) (rest : List Char) :
    isText c rest = true := by
  rw [isOrdinary, Bool.and_eq_true, decide_eq_true_eq] at h
  exact isText_iff.mpr ⟨h.1, fun hsigil => absurd hsigil h.2⟩

theorem textRun_ordinary {text : List Char} (h : ∀ c ∈ text, isOrdinary c = true)
    (rest : List Char) : (textRun (text ++ rest)).2 = (textRun rest).2 := by
  induction text with
  | nil => rfl
  | cons c text ih =>
    rw [List.forall_mem_cons] at h
    rw [List.cons_append, textRun_of_pos (isText_of_isOrdinary h.1 _)]
    exact ih h.2

theorem someRun_of_pos {p : Char → Bool} (what : String) (h : p c = true) (rest : List Char) :
    someRun what p (c :: rest) = .ok ((c :: rest).takeWhile p, (c :: rest).dropWhile p) := by
  rw [someRun, List.takeWhile_cons_of_pos h, List.isEmpty_cons, if_neg Bool.false_ne_true, run,
    List.takeWhile_cons_of_pos h]

theorem outcome_someRun_of_neg {what : String} {p : Char → Bool} (h : ¬p c = true) :
    (someRun what p (c :: rest)).outcome = .ok none := by
  rw [someRun, List.takeWhile_cons_of_neg h]
  rfl

/-- Where the text starts with no plain text, none is tried. -/
theorem outcome_textPart_of_neg (h : ¬isText c rest = true) :
    (textPart (c :: rest)).outcome = .ok none := by
  have hordinary : ¬isOrdinary c = true := fun hc => h (isText_of_isOrdinary hc rest)
  rw [textPart, outcome_alt_of_none (outcome_someRun_of_neg hordinary), outcome_alt_singleton,
    recognize, satisfying]
  by_cases hsigil : c ∈ sigils
  · -- a bracket follows, for else the character would be plain text
    have hopen : ∃ inner, rest = '[' :: inner := by
      rw [isText_iff, not_and, isPlain_of_mem_sigils hsigil] at h
      have hhead := h rfl
      push Not at hhead
      exact List.head?_eq_some_iff.mp hhead.2
    obtain ⟨inner, rfl⟩ := hopen
    rw [if_pos (decide_eq_true hsigil)]
    simp only [ok_bind, absent, char_self]
    rfl
  · rw [if_neg (by simpa using hsigil)]
    rfl

/-- A part of plain text is followed by what is left of it. -/
theorem textPart_of_pos (h : isText c rest = true) : ∃ part behind,
    textPart (c :: rest) = .ok (part, behind) ∧ behind.length < (c :: rest).length ∧
      (textRun behind).2 = (textRun (c :: rest)).2 := by
  by_cases hordinary : isOrdinary c = true
  · have hread := someRun_of_pos "IsNot" hordinary rest
    refine ⟨(c :: rest).takeWhile isOrdinary, (c :: rest).dropWhile isOrdinary, ?_, ?_, ?_⟩
    · apply eq_of_outcome_some
      have hne : (someRun "IsNot" isOrdinary (c :: rest)).outcome ≠ .ok none := by
        rw [hread]
        intro h
        cases h
      rw [textPart, outcome_alt_of_ne hne, hread]
      rfl
    · rw [List.dropWhile_cons_of_pos hordinary]
      exact Nat.lt_succ_of_le (length_dropWhile_le isOrdinary rest)
    · have hcut := List.takeWhile_append_dropWhile (p := isOrdinary) (l := c :: rest)
      conv_rhs => rw [← hcut]
      exact (textRun_ordinary (fun d hd => List.mem_takeWhile_imp hd) _).symm
  · -- the character is a mark, and no bracket follows
    have htext := isText_iff.mp h
    have hsigil : c ∈ sigils := by
      rw [isOrdinary, htext.1, Bool.true_and, decide_eq_true_eq] at hordinary
      exact not_not.mp hordinary
    have hopen : ∀ inner, rest ≠ '[' :: inner := by
      rintro inner rfl
      exact htext.2 hsigil rfl
    refine ⟨[c], rest, eq_of_outcome_some ?_, Nat.lt_succ_self _, ?_⟩
    · rw [textPart, outcome_alt_of_none (outcome_someRun_of_neg hordinary), outcome_alt_singleton,
        recognize, satisfying, if_pos (decide_eq_true hsigil)]
      simp only [ok_bind, absent, outcome_char_of_ne hopen]
      show Except.ok (some ((c :: rest).take ((c :: rest).length - rest.length), rest)) = _
      rw [List.length_cons, Nat.add_sub_cancel_left]
      rfl
    · rw [textRun_of_pos h]

/-- The parts of plain text that are tried are all of it. -/
theorem exists_many_textPart (cs : List Char) :
    ∃ parts, many textPart cs = .ok (parts, (textRun cs).2) := by
  -- every part is some of the text, so the induction is on its length
  induction hn : cs.length using Nat.strongRecOn generalizing cs with
  | ind n ih =>
    rw [many]
    rcases cs with _ | ⟨c, rest⟩
    · exact ⟨[], rfl⟩
    by_cases h : isText c rest = true
    · obtain ⟨part, behind, hpart, hshort, hrest⟩ := textPart_of_pos h
      obtain ⟨parts, hparts⟩ := ih behind.length (hn ▸ hshort) behind rfl
      rw [hpart]
      refine ⟨part :: parts, ?_⟩
      simp only [Attempt.outcome, if_pos hshort, hparts, ok_bind, hrest]
      rfl
    · rw [outcome_textPart_of_neg h, textRun_of_neg h]
      exact ⟨[], rfl⟩

theorem outcome_literalRun_of_neg (h : ¬isText c rest = true) :
    (literalRun (c :: rest)).outcome = .ok none := by
  obtain ⟨what, left, hpart⟩ := eq_of_outcome_none (outcome_textPart_of_neg h)
  rw [literalRun, recognize, hpart]
  rfl

theorem take_length_sub (front rest : List Char) :
    (front ++ rest).take ((front ++ rest).length - rest.length) = front := by
  rw [List.length_append, Nat.add_sub_cancel, List.take_left]

/-- A run of plain text is all of it. -/
theorem literalRun_of_pos (h : isText c rest = true) :
    literalRun (c :: rest) = .ok (textRun (c :: rest)) := by
  obtain ⟨part, behind, hpart, hshort, hrest⟩ := textPart_of_pos h
  obtain ⟨parts, hparts⟩ := exists_many_textPart behind
  have htake := take_length_sub (textRun (c :: rest)).1 (textRun (c :: rest)).2
  rw [textRun_append] at htake
  simp only [literalRun, recognize, hpart, ok_bind, hparts, hrest]
  show Except.ok (_, _) = _
  rw [htake]

end Runs

/-! ### Groups -/

section Groups

variable {width : Nat} {cs rest inner : List Char} {mark : Mark} {c : Char}

/-- What is tried where a group opens. -/
theorem group_of_open (width : Nat) (mark : Mark) (inner : List Char) :
    group width mark (mark.sigil :: '[' :: inner)
      = (bracketBody (inner.length + 2) inner >>= fun b =>
          ((mark.read (columnOf width (inner.length + 2)) b.1).mapError
            fun fault => ⟨fault, inner.length + 2⟩) >>= fun piece => .ok (piece, b.2)).mapError
        .fault := by
  have hreference (kind : Kind) : referenceTo width kind (kind.sigil :: '[' :: inner)
      = (bracketBody (inner.length + 2) inner >>= fun b =>
          ((readReference kind (columnOf width (inner.length + 2)) b.1).mapError
            fun fault => ⟨fault, inner.length + 2⟩) >>= fun piece => .ok (piece, b.2)).mapError
        .fault := by
    simp only [referenceTo, char_self, ok_bind, bracketText_eq]
    rcases bracketBody (inner.length + 2) inner with stop | ⟨body, behind⟩
    · simp only [List.length_cons]
      rfl
    · simp only [List.length_cons, mapError_ok, ok_bind]
      rcases readReference kind (columnOf width (inner.length + 2)) body with fault | piece
      · rfl
      · rfl
  cases mark with
  | «alias» => exact hreference .alias
  | slot => exact hreference .slot
  | optional =>
    have htag : tag ['?', '['] (Mark.optional.sigil :: '[' :: inner)
        = .ok (['?', '['], inner) := rfl
    simp only [group, segment, htag, ok_bind, bracketText_eq, Mark.read]
    rcases bracketBody (inner.length + 2) inner with stop | ⟨body, behind⟩
    · simp only [List.length_cons]
      rfl
    · simp only [List.length_cons, mapError_ok, ok_bind]
      rcases (trim body).isEmpty with _ | _
      · rfl
      · rfl

theorem outcome_group_of_ne (h : ∀ inner, cs ≠ mark.sigil :: '[' :: inner) :
    (group width mark cs).outcome = .ok none := by
  have hreference (kind : Kind) (h : ∀ inner, cs ≠ kind.sigil :: '[' :: inner) :
      (referenceTo width kind cs).outcome = .ok none := by
    rcases Classical.em (∃ rest, cs = kind.sigil :: rest) with ⟨rest, rfl⟩ | hother
    · have hopen : ∀ inner, rest ≠ '[' :: inner := by
        rintro inner rfl
        exact h inner rfl
      obtain ⟨what, left, hchar⟩ := eq_of_outcome_none (outcome_char_of_ne hopen)
      simp only [referenceTo, char_self, ok_bind, hchar]
      rfl
    · rw [not_exists] at hother
      obtain ⟨what, left, hchar⟩ := eq_of_outcome_none (outcome_char_of_ne hother)
      rw [referenceTo, hchar]
      rfl
  cases mark with
  | «alias» => exact hreference .alias h
  | slot => exact hreference .slot h
  | optional =>
    have htag : ¬['?', '['].isPrefixOf cs = true := by
      rw [List.isPrefixOf_iff_prefix]
      rintro ⟨inner, rfl⟩
      exact h inner rfl
    rw [group, segment, tag, if_neg htag]
    rfl

theorem outcome_one (r : Reader Piece) (cs : List Char) :
    (one r cs).outcome = (r cs).outcome.map (Option.map fun b => ([b.1], b.2)) := by
  rw [one]
  rcases r cs with (⟨what, left⟩ | stop) | b
  · rfl
  · rfl
  · rfl

/-- What a group is read as without trials. -/
theorem readPiece?_open (width : Nat) (before : Option Char) (mark : Mark) (inner : List Char) :
    (group width mark (mark.sigil :: '[' :: inner)).outcome
      = readPiece? width before (mark.sigil :: '[' :: inner) := by
  have htext : ¬isText mark.sigil ('[' :: inner) = true := by
    rw [isText_iff]
    exact fun h => h.2 mark.sigil_mem_sigils rfl
  have hopen : Mark.open? mark.sigil ('[' :: inner) = some (mark, inner) :=
    Mark.open?_eq_some_iff.mpr ⟨rfl, Mark.ofChar?_eq_some_iff.mpr rfl⟩
  rw [group_of_open, readPiece?, if_neg htext, hopen]
  simp only [List.length_cons]
  rcases bracketBody (inner.length + 2) inner with stop | ⟨body, behind⟩
  · rfl
  · simp only [ok_bind]
    rcases mark.read (columnOf width (inner.length + 2)) body with fault | piece
    · rfl
    · rfl

/-- What is tried where no plain text stands: the groups, one after the other, and then what is
wrong. -/
theorem outcome_portion_of_neg (width : Nat) (front : List Char) (h : ¬isText c rest = true) :
    (portion width (front ++ c :: rest) (c :: rest)).outcome
      = (readPiece? width front.getLast? (c :: rest)).map (Option.map fun b => ([b.1], b.2)) := by
  have hplain : (plain (c :: rest)).outcome = .ok none := by
    obtain ⟨what, left, hrun⟩ := eq_of_outcome_none (outcome_literalRun_of_neg h)
    rw [plain, hrun]
    rfl
  have hgroup {mark : Mark} (h : ∀ inner, c :: rest ≠ mark.sigil :: '[' :: inner) :
      (one (group width mark) (c :: rest)).outcome = .ok none := by
    rw [outcome_one, outcome_group_of_ne h]
    rfl
  rw [portion, outcome_alt_of_none hplain]
  rcases hopen : Mark.open? c rest with _ | ⟨mark, inner⟩
  · -- no group opens, so all give way to what is wrong
    have hnone (mark : Mark) (inner : List Char) : c :: rest ≠ mark.sigil :: '[' :: inner := by
      intro heq
      cases heq
      rw [Mark.open?_eq_some_iff.mpr ⟨rfl, Mark.ofChar?_eq_some_iff.mpr rfl⟩] at hopen
      cases hopen
    rw [outcome_alt_of_none (hgroup (hnone .alias)), outcome_alt_of_none (hgroup (hnone .slot)),
      outcome_alt_of_none (hgroup (hnone .optional)), outcome_alt_singleton, outcome_one, unfit,
      take_length_sub, readPiece?, if_neg h, hopen]
    rcases misplaced? front.getLast? c rest with _ | fault
    · rfl
    · rfl
  · obtain ⟨rfl, hmark⟩ := Mark.open?_eq_some_iff.mp hopen
    obtain rfl := Mark.ofChar?_eq_some_iff.mp hmark
    have hself : (one (group width mark) (mark.sigil :: '[' :: inner)).outcome
        = (readPiece? width front.getLast? (mark.sigil :: '[' :: inner)).map
          (Option.map fun b => ([b.1], b.2)) := by
      rw [outcome_one, readPiece?_open]
    have hread : (one (group width mark) (mark.sigil :: '[' :: inner)).outcome ≠ .ok none := by
      rw [hself]
      rcases hpiece : readPiece? width front.getLast? (mark.sigil :: '[' :: inner)
        with stop | _ | b
      · intro h
        cases h
      · cases eq_nil_of_readPiece?_eq_none hpiece
      · intro h
        cases h
    have hother {mark' : Mark} (hne : mark' ≠ mark) (inner' : List Char) :
        mark.sigil :: '[' :: inner ≠ mark'.sigil :: '[' :: inner' := by
      intro heq
      exact hne (Mark.sigil_injective (List.cons.inj heq).1).symm
    rw [← hself]
    -- the groups that are tried before it have other marks
    cases mark with
    | «alias» => rw [outcome_alt_of_ne hread]
    | slot =>
      rw [outcome_alt_of_none (hgroup (hother (by decide))), outcome_alt_of_ne hread]
    | optional =>
      rw [outcome_alt_of_none (hgroup (hother (by decide))),
        outcome_alt_of_none (hgroup (hother (by decide))), outcome_alt_of_ne hread]

end Groups

/-! ### Sentences -/

section Sentences

variable {width : Nat} {c : Char} {cs rest : List Char}

/-- Pieces are read one by one through a run of plain text, and then go on behind it. -/
theorem pieces_textRun (width : Nat) (front cs : List Char) :
    pieces width front.getLast? cs
      = (pieces width (front ++ (textRun cs).1).getLast? (textRun cs).2).map
          fun b => ((textRun cs).1.map .text ++ b.1, b.2) := by
  induction cs generalizing front with
  | nil =>
    rw [textRun, List.append_nil]
    rcases pieces width front.getLast? [] with stop | b
    · rfl
    · rfl
  | cons c rest ih =>
    by_cases h : isText c rest = true
    · have hread : readPiece? width front.getLast? (c :: rest) = .ok (some (.text c, rest)) := by
        rw [readPiece?, if_pos h]
      have hlast : ((c :: rest).take ((c :: rest).length - rest.length)).getLast?
          = (front ++ [c]).getLast? := by
        rw [List.length_cons, Nat.add_sub_cancel_left, List.getLast?_concat]
        rfl
      have hfirst : (textRun (c :: rest)).1 = c :: (textRun rest).1 := by rw [textRun_of_pos h]
      have hrest : (textRun (c :: rest)).2 = (textRun rest).2 := by rw [textRun_of_pos h]
      rw [pieces_of_some hread, hlast, ih, hfirst, hrest, List.append_assoc, List.singleton_append]
      rcases pieces width (front ++ c :: (textRun rest).1).getLast? (textRun rest).2 with stop | b
      · rfl
      · rfl
    · rw [textRun_of_neg h, List.append_nil]
      rcases pieces width front.getLast? (c :: rest) with stop | b
      · rfl
      · rfl

theorem plain_of_pos (h : isText c rest = true) : plain (c :: rest)
    = .ok ((textRun (c :: rest)).1.map .text, (textRun (c :: rest)).2) := by
  rw [plain, literalRun_of_pos h]
  rfl

/-- One more portion in front of others that are the same pieces. -/
theorem portions_cons {x : Attempt (List (List Piece) × List Char)}
    {y : Except Stop (List Piece × List Char)}
    (h : x.map (fun b => (b.1.flatten, b.2)) = y.mapError .fault) (first : List Piece) :
    (x >>= fun b => .ok (first :: b.1, b.2)).map (fun b => (b.1.flatten, b.2))
      = (y.map fun b => (first ++ b.1, b.2)).mapError .fault := by
  rcases x with hindrance | b
  · rcases y with stop | b'
    · cases h
      rfl
    · cases h
  · rcases y with stop | b'
    · cases h
    · cases h
      rfl

/-- **The same pieces are read** by trial and without. -/
theorem many_portion_eq (width : Nat) (front cs : List Char) :
    (many (portion width (front ++ cs)) cs).map (fun b => (b.1.flatten, b.2))
      = (pieces width front.getLast? cs).mapError .fault := by
  -- one portion is read after the other, and what has been read counts as standing in front
  induction hn : cs.length using Nat.strongRecOn generalizing front cs with
  | ind n ih =>
    rcases cs with _ | ⟨c, rest⟩
    · rw [many, pieces_of_none rfl]
      rfl
    -- what stands in front of the next portion, and the text behind that portion
    have hnext {text behind : List Char} {first : List Piece} (hcut : c :: rest = text ++ behind)
        (hsome : text ≠ [])
        (hread : (portion width (front ++ c :: rest) (c :: rest)).outcome
          = .ok (some (first, behind))) :
        (many (portion width (front ++ c :: rest)) (c :: rest)).map
            (fun b => (b.1.flatten, b.2))
          = ((pieces width (front ++ text).getLast? behind).map
              fun b => (first ++ b.1, b.2)).mapError .fault := by
      have hshort : behind.length < (c :: rest).length := by
        have hpos := List.length_pos_of_ne_nil hsome
        rw [hcut, List.length_append]
        omega
      have hrest := ih behind.length (hn ▸ hshort) (front ++ text) behind rfl
      rw [List.append_assoc, ← hcut] at hrest
      rw [many]
      simp only [hread, if_pos hshort]
      exact portions_cons hrest first
    by_cases h : isText c rest = true
    · have hread : (portion width (front ++ c :: rest) (c :: rest)).outcome
          = .ok (some ((textRun (c :: rest)).1.map .text, (textRun (c :: rest)).2)) := by
        have hne : (plain (c :: rest)).outcome ≠ .ok none := by
          rw [plain_of_pos h]
          intro h
          cases h
        rw [portion, outcome_alt_of_ne hne, plain_of_pos h]
        rfl
      rw [pieces_textRun]
      refine hnext (textRun_append _).symm ?_ hread
      rw [textRun_of_pos h]
      exact List.cons_ne_nil _ _
    · have hread := outcome_portion_of_neg width front h
      rcases hpiece : readPiece? width front.getLast? (c :: rest) with stop | _ | ⟨piece, behind⟩
      · rw [many, hread, hpiece, pieces_of_error hpiece]
        rfl
      · cases eq_nil_of_readPiece?_eq_none hpiece
      obtain ⟨text, hcut, hsome⟩ : ∃ text, c :: rest = text ++ behind ∧ text ≠ [] := by
        rcases eq_of_readPiece?_eq_some hpiece with ⟨d, -, hd, -⟩ | ⟨mark, body, -, hgroup, -⟩
        · exact ⟨[d], hd, List.cons_ne_nil _ _⟩
        · exact ⟨mark.group body, hgroup, List.cons_ne_nil _ _⟩
      rw [hpiece] at hread
      rw [hnext hcut hsome hread, pieces_of_some hpiece, hcut, take_length_sub,
        List.getLast?_append_of_ne_nil front hsome]
      rfl

theorem opt_weight_eq (cs : List Char) : opt weight cs = (readWeight cs).mapError .fault := by
  rcases Classical.em (∃ inner, cs = '*' :: '[' :: inner) with ⟨inner, rfl⟩ | hother
  · have htag : tag ['*', '['] ('*' :: '[' :: inner) = .ok (['*', '['], inner) := rfl
    rw [readWeight_of_some, opt]
    simp only [weight, htag, ok_bind, bracketText_eq, List.length_cons]
    rcases bracketBody (inner.length + 2) inner with stop | ⟨body, behind⟩
    · rfl
    simp only [mapError_ok, ok_bind]
    rcases readPercentage body with fault | value
    · rfl
    · rfl
  · rw [not_exists] at hother
    have htag : ¬['*', '['].isPrefixOf cs = true := by
      rw [List.isPrefixOf_iff_prefix]
      rintro ⟨inner, rfl⟩
      exact hother inner rfl
    rw [readWeight_of_none hother, opt, weight, tag, if_neg htag]
    rfl

/-- **A sentence that is tried is read.** -/
theorem sentence_eq (number width : Nat) (cs : List Char) :
    sentence number width cs = (readSentence number width cs).mapError .fault := by
  rw [sentence, readSentence_eq, opt_weight_eq]
  rcases hweight : readWeight cs with stop | ⟨value, rest⟩
  · rfl
  obtain ⟨front, rfl, -⟩ := readWeight_eq_ok_iff.mp hweight
  have hmany := many_portion_eq width front rest
  simp only [mapError_ok, ok_bind, take_length_sub]
  rcases hportions : many (portion width (front ++ rest)) rest with hindrance | ⟨portions, left⟩
  · rw [hportions] at hmany
    rcases hpieces : pieces width front.getLast? rest with stop | b
    · rw [hpieces] at hmany
      cases hmany
      rfl
    · rw [hpieces] at hmany
      cases hmany
  · rw [hportions] at hmany
    rcases hpieces : pieces width front.getLast? rest with stop | b
    · rw [hpieces] at hmany
      cases hmany
    · rw [hpieces] at hmany
      cases hmany
      simp only [ok_bind, List.isEmpty_iff]
      split
      · rfl
      · rfl

end Sentences

end Trial

end IntentGrammar
