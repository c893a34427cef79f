import IntentGrammar.Decimal.Reading
import IntentGrammar.Grammar.Label

/-!
# Sentences

A sentence starts with an optional weight `*[20%]`.  The rest is plain text in which `~[name]` and
`@[name]` refer to definitions and `?[words]` is a part that may be left out.  A character that
marks such a group is plain text wherever no bracket follows it.

Reading goes from left to right, piece by piece.  It fails at the first bracket that does not fit,
and otherwise stops where no piece starts; what is left there is returned with the sentence.
-/

namespace IntentGrammar

open Text

/-! ### Weights -/

/-- Read a weight in percent. -/
def readPercentage (body : List Char) : Except Fault Float :=
  let text := trim body
  if text.getLast? == some '%' then
    let number := trim text.dropLast
    match Decimal.read? number with
    | none => .error (.badWeight (String.ofList text))
    | some value =>
      if 0.0 < value && value ≤ 100.0 then .ok value
      else .error (.weightOutOfRange (String.ofList number))
  else .error (.notPercentage (String.ofList text))

/-- The weight at the start of a sentence, if it has one, and the text behind it. -/
def readWeight (cs : List Char) : Except Stop (Option Float × List Char) :=
  match cs with
  | '*' :: '[' :: inner => do
    let (body, rest) ← bracketBody cs.length inner
    let value ← (readPercentage body).mapError fun fault => ⟨fault, cs.length⟩
    return (some value, skipIndent rest)
  | _ => return (none, cs)

/-! ### Groups in brackets -/

/-- What a group in brackets is, told by the character before it. -/
inductive Mark where
  | alias
  | slot
  | optional
  deriving DecidableEq, Repr

/-- The mark that a character is when a bracket follows. -/
def Mark.ofChar? (c : Char) : Option Mark :=
  if c = '~' then some .alias
  else if c = '@' then some slot
  else if c = '?' then some optional
  else none

/-- A piece of a sentence: one character of plain text, or a group. -/
inductive Piece where
  | text (c : Char)
  | segment (words : List Char)
  | reference (r : Reference)
  deriving DecidableEq, Repr

/-- Read the name of a referenced definition. -/
def readReference (kind : Kind) (column : Nat) (body : List Char) : Except Fault Piece := do
  let label ← Label.read body
  return .reference ⟨kind, label.name, label.variation, label.optional, column⟩

/-- Read what stands between the brackets of a group. -/
def Mark.read (mark : Mark) (column : Nat) (body : List Char) : Except Fault Piece :=
  match mark with
  | .alias => readReference .alias column body
  | slot => readReference .slot column body
  | optional =>
    let words := trim body
    if words.isEmpty then .error .emptySegment else .ok (.segment words)

/-- Why the character `c`, with `before` in front of it and `rest` behind it, is not plain text. -/
def misplaced? (before : Option Char) (c : Char) (rest : List Char) : Option Fault :=
  if c = '%' ∧ rest.head? = some '[' then some .intentInSentence
  else if c = '*' ∧ rest.head? = some '[' then some .lateWeight
  else if c = ']' then some .unmatchedClose
  else if c = '[' then
    match before with
    | some b => some (if isBlank b then .bareBracket else .unknownSigilBefore b)
    | none => some .bareBracket
  else none

/-- The mark and the text behind the bracket, if `c` and what follows it open a group. -/
def Mark.open? (c : Char) (rest : List Char) : Option (Mark × List Char) :=
  match rest with
  | '[' :: inner => (Mark.ofChar? c).map fun mark => (mark, inner)
  | _ => none

theorem Mark.open?_eq_some_iff {c : Char} {rest inner : List Char} {mark : Mark} :
    Mark.open? c rest = some (mark, inner) ↔ rest = '[' :: inner ∧ Mark.ofChar? c = some mark := by
  unfold Mark.open?
  split
  · rename_i tail
    constructor
    · intro h
      obtain ⟨m, hm, heq⟩ := Option.map_eq_some_iff.1 h
      cases heq
      exact ⟨rfl, hm⟩
    · rintro ⟨hrest, hm⟩
      cases hrest
      simp [hm]
  · rename_i hne
    constructor
    · intro h
      cases h
    · rintro ⟨hrest, -⟩
      exact absurd hrest (hne inner)

/-- The characters that are no plain text when a bracket follows. -/
def sigils : List Char := ['~', '@', '%', '*', '?']

/-- The character `c`, with `rest` behind it, is plain text. -/
def isText (c : Char) (rest : List Char) : Bool :=
  if c ∈ sigils then rest.head? != some '[' else isPlain c

/-- The piece that a text starts with, if any kind of piece starts there, and what follows it.  The
text is on a line of `width` characters, and `before` is the character in front of it within the
sentence. -/
def readPiece? (width : Nat) (before : Option Char) :
    List Char → Except Stop (Option (Piece × List Char))
  | [] => .ok none
  | c :: rest =>
    let left := rest.length + 1
    if isText c rest then .ok (some (.text c, rest))
    else
      match Mark.open? c rest with
      | some (mark, inner) =>
        match bracketBody left inner with
        | .error stop => .error stop
        | .ok (body, after) =>
          match mark.read (columnOf width left) body with
          | .error fault => .error ⟨fault, left⟩
          | .ok piece => .ok (some (piece, after))
      | none =>
        match misplaced? before c rest with
        | some fault => .error ⟨fault, left⟩
        | none => .ok none

/-- What follows a piece is shorter than the text. -/
theorem length_lt_of_readPiece? {width : Nat} {before : Option Char} {cs rest : List Char}
    {piece : Piece} (h : readPiece? width before cs = .ok (some (piece, rest))) :
    rest.length < cs.length := by
  rcases cs with _ | ⟨c, tail⟩
  · cases h
  · rw [readPiece?] at h
    split at h
    · cases h
      exact Nat.lt_succ_self _
    · split at h
      · next mark inner hopen =>
        split at h
        · cases h
        · next body after hbody =>
          split at h
          · cases h
          · cases h
            have hafter := length_lt_of_bracketBody hbody
            rw [(Mark.open?_eq_some_iff.1 hopen).1, List.length_cons, List.length_cons]
            omega
      · split at h
        · cases h
        · cases h

/-- The pieces of a text up to where none starts, and what is left there. -/
def pieces (width : Nat) (before : Option Char) (cs : List Char) :
    Except Stop (List Piece × List Char) :=
  match h : readPiece? width before cs with
  | .error stop => .error stop
  | .ok none => .ok ([], cs)
  | .ok (some (piece, rest)) =>
    have : rest.length < cs.length := length_lt_of_readPiece? h
    let last := (cs.take (cs.length - rest.length)).getLast?
    (pieces width last rest).map fun (ps, left) => (piece :: ps, left)
termination_by cs.length

/-! ### Elements -/

/-- The literal for a stretch of plain text, given backwards, unless it is blank. -/
def flush (backwards : List Char) : List Element :=
  let text := trim backwards.reverse
  if text.isEmpty then [] else [.literal (String.ofList text) false]

/-- The elements that pieces make up, after a stretch of plain text given backwards. -/
def elementsFrom (backwards : List Char) : List Piece → List Element
  | [] => flush backwards
  | .text c :: ps => elementsFrom (c :: backwards) ps
  | .segment words :: ps =>
    flush backwards ++ .literal (String.ofList words) true :: elementsFrom [] ps
  | .reference r :: ps => flush backwards ++ .reference r :: elementsFrom [] ps

/-- The elements of a sentence. -/
def elementsOf (ps : List Piece) : List Element := elementsFrom [] ps

/-- Read a sentence on a line of the given number and width.  What is left of the text is returned
too. -/
def readSentence (number width : Nat) (cs : List Char) :
    Except Stop (Alternative × List Char) := do
  let (weight, rest) ← readWeight cs
  let before := (cs.take (cs.length - rest.length)).getLast?
  let (ps, left) ← pieces width before rest
  let elements := elementsOf ps
  if elements.isEmpty then throw ⟨.emptySentence, cs.length⟩
  return ({ elements, weight, line := number }, left)

end IntentGrammar
