import IntentGrammar.Yaml.Place

/-!
# Block scalars

A block scalar starts behind a bar or an angle, and a header: how far its lines are indented, and
what becomes of the line breaks at its end.  If the header does not tell the indentation, the first
lines do.  Behind a bar every line break is kept.  Behind an angle a single line feed between two
lines counts as a space, unless one of the lines starts with white space.
-/

namespace IntentGrammar.Yaml

/-- What becomes of the line breaks at the end of a block scalar. -/
inductive Chomping where
  /-- None is kept. -/
  | strip
  /-- The first is kept. -/
  | clip
  /-- All are kept. -/
  | keep
  deriving DecidableEq

/-- The header behind the bar or the angle: the chomping and the further indentation. -/
structure BlockHeader where
  chomping : Chomping := .clip
  increment : Option Nat := none

namespace BlockHeader

/-- Read what the header says about chomping. -/
def readChomping (h : BlockHeader) : List Char → BlockHeader × List Char
  | '-' :: cs => ({ h with chomping := .strip }, cs)
  | '+' :: cs => ({ h with chomping := .keep }, cs)
  | cs => (h, cs)

/-- Read what the header says about indentation, a digit other than zero. -/
def readIncrement? (h : BlockHeader) : List Char → Option (BlockHeader × List Char)
  | c :: cs =>
    if c = '0' then none
    else if c.isDigit then some ({ h with increment := some (c.toNat - '0'.toNat) }, cs)
    else some (h, c :: cs)
  | [] => some (h, [])

/-- Read a header and the rest of its line, which may hold a comment.  The two parts of the header
may stand in either order. -/
def read? (cs : List Char) : Option (BlockHeader × List Char) := do
  let (h, afterChomping) := readChomping {} cs
  let (h, afterIncrement) ← h.readIncrement? afterChomping
  let (h, cs) :=
    if h.chomping = .clip && h.increment.isSome then h.readChomping afterIncrement
    else (h, afterIncrement)
  let cs := cs.dropWhile isGap
  let cs := if cs.head? = some '#' then cs.dropWhile (!isBreak ·) else cs
  match cs with
  | [] => return (h, [])
  | c :: cs => if isBreak c then return (h, cs) else none

end BlockHeader

/-- The widest column that the spaces at the start of a text reach, over all lines up to the first
that holds anything else.  A tab is refused there. -/
def marginOf? (column widest : Nat) : List Char → Option Nat
  | [] => some (max widest column)
  | c :: cs =>
    if c = ' ' then marginOf? (column + 1) widest cs
    else if isBreak c then marginOf? 0 (max widest column) cs
    else if c = '\t' then none
    else some (max widest column)

/-- A block scalar being read: its text backwards, the line break at the end of the last line, the
line breaks behind it, and whether the last line starts with white space. -/
structure BlockDraft where
  text : List Char := []
  lineBreak : List Char := []
  extraBreaks : List Char := []
  startsBlank : Bool := false
  inLine : Bool := false

namespace BlockDraft

/-- Start a line with its first character. -/
def startLine (folded : Bool) (d : BlockDraft) (c : Char) : BlockDraft :=
  let between :=
    if folded && d.lineBreak = ['\n'] && !d.startsBlank && !isGap c then
      if d.extraBreaks.isEmpty then [' '] else d.extraBreaks
    else d.lineBreak ++ d.extraBreaks
  { text := c :: (between.reverse ++ d.text), startsBlank := isGap c, inLine := true }

/-- Add a line break. -/
def newLine (d : BlockDraft) (c : Char) : BlockDraft :=
  if d.inLine then { d with lineBreak := [c], extraBreaks := [], inLine := false }
  else { d with extraBreaks := d.extraBreaks ++ [c] }

/-- The text of the whole scalar. -/
def finish (d : BlockDraft) (chomping : Chomping) : String :=
  let tail :=
    match chomping with
    | .strip => []
    | .clip => d.lineBreak
    | .keep => d.lineBreak ++ d.extraBreaks
  String.ofList (d.text.reverse ++ tail)

end BlockDraft

/-- What is left of a block scalar whose lines start in the column `indent`. -/
def readBlockLines (folded : Bool) (indent : Nat) (d : BlockDraft) (place : Place)
    (cs : List Char) : Option (BlockDraft × Cursor) :=
  let done := some (d, (⟨cs, place⟩ : Cursor))
  match cs with
  | [] => done
  | c :: rest =>
    if isBreak c then readBlockLines folded indent (d.newLine c) (place.past c) rest
    else if d.inLine then
      readBlockLines folded indent { d with text := c :: d.text } (place.past c) rest
    else if place.column < indent then
      if c = ' ' then readBlockLines folded indent d (place.past c) rest
      else if c = '\t' then none
      else done
    else readBlockLines folded indent (d.startLine folded c) (place.past c) rest

/-- A block scalar, from the bar or the angle on.  Its lines are indented further than the blocks
around it, whose next entry would have to start left of the column `least`. -/
def readBlockScalar (folded : Bool) (least : Nat) (c : Cursor) : Option (String × Cursor) := do
  let (header, rest) ← BlockHeader.read? (c.rest.drop 1)
  let c := c.forwardTo rest
  let indent ←
    match header.increment with
    | some n => pure (least - 1 + n)
    | none => (marginOf? 0 0 rest).map fun widest => max widest (max least 1)
  let (d, c) ← readBlockLines folded indent {} c.place c.rest
  return (d.finish header.chomping, c)

end IntentGrammar.Yaml
