/-!
# Places in a YAML text

The reading of a YAML text depends on where a character stands: blocks are told apart by their
columns, and a key has to end on the line and within a distance of its first character.  This module
has the classes of characters that matter, the place of a character, and the cursor that pairs a
place with the text from there on.
-/

namespace IntentGrammar.Yaml

/-! ### Characters -/

/-- The characters that a YAML text may hold. -/
def isAllowed (c : Char) : Bool :=
  let n := c.toNat
  n = 9 || n = 10 || n = 13 || (0x20 ≤ n && n ≤ 0x7E) || n = 0x85 || (0xA0 ≤ n && n ≤ 0xD7FF)
    || (0xE000 ≤ n && n ≤ 0xFFFD) || 0x10000 ≤ n

/-- The text with every carriage return, next line, and carriage return in front of a line feed as
one line feed. -/
def unifyBreaks : List Char → List Char
  | [] => []
  | '\r' :: '\n' :: cs => '\n' :: unifyBreaks cs
  | c :: cs => (if c = '\r' ∨ c.toNat = 0x85 then '\n' else c) :: unifyBreaks cs

/-- A line feed, or one of the separators of lines and of paragraphs. -/
def isBreak (c : Char) : Bool := c = '\n' || c.toNat = 0x2028 || c.toNat = 0x2029

/-- A space or a tab. -/
def isGap (c : Char) : Bool := c = ' ' || c = '\t'

/-- White space, or the end of the text, comes next. -/
def atGap : List Char → Bool
  | [] => true
  | c :: _ => isGap c || isBreak c

/-- A mark of three characters stands at the start of the text, with a gap behind it. -/
def startsWithMark (mark cs : List Char) : Bool := mark.isPrefixOf cs && atGap (cs.drop mark.length)

/-- One of the marks that start and end a document stands at the start of the text. -/
def atMark (cs : List Char) : Bool :=
  startsWithMark ['-', '-', '-'] cs || startsWithMark ['.', '.', '.'] cs

/-- The characters of names: letters and digits of ASCII, the hyphen and the underscore. -/
def isNameChar (c : Char) : Bool := c.isAlphanum || c = '-' || c = '_'

/-- The brackets of flow style. -/
def isBracket (c : Char) : Bool := c = '[' || c = ']' || c = '{' || c = '}'

/-! ### Places -/

/-- Where a character stands: its line, its column, and how many bytes stand before it on its
line. -/
structure Place where
  line : Nat := 0
  column : Nat := 0
  bytes : Nat := 0

/-- The place behind a character. -/
def Place.past (p : Place) (c : Char) : Place :=
  if isBreak c then { line := p.line + 1 }
  else { p with column := p.column + 1, bytes := p.bytes + c.utf8Size }

/-- What is left of a text, and where it stands. -/
structure Cursor where
  rest : List Char
  place : Place := {}

namespace Cursor

/-- The column of the next character. -/
def column (c : Cursor) : Nat := c.place.column

/-- Go forward by some characters. -/
def forward (c : Cursor) (n : Nat) : Cursor :=
  { rest := c.rest.drop n, place := (c.rest.take n).foldl Place.past c.place }

/-- Go forward to a text that ends the text left. -/
def forwardTo (c : Cursor) (rest : List Char) : Cursor :=
  c.forward (c.rest.length - rest.length)

end Cursor

/-- Go to the next character that is neither white space nor part of a comment.  A tab counts as
white space in flow style, and in block style where no key may start; a byte order mark does at the
start of a line.  Behind a line break of block style a key may start: the second part of the result
says whether one may. -/
def skipGaps (flow keyAllowed comment : Bool) (place : Place) : List Char → Cursor × Bool
  | [] => (⟨[], place⟩, keyAllowed)
  | c :: cs =>
    if isBreak c then skipGaps flow (keyAllowed || !flow) false (place.past c) cs
    else if comment || c = ' ' || (c = '\t' && (flow || !keyAllowed))
        || (c.toNat = 0xFEFF && place.column = 0) then
      skipGaps flow keyAllowed comment (place.past c) cs
    else if c = '#' then skipGaps flow keyAllowed true (place.past c) cs
    else (⟨c :: cs, place⟩, keyAllowed)

end IntentGrammar.Yaml
