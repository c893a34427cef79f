import IntentGrammar.Yaml.Place

/-!
# Text over several lines

A scalar that is plain or in quotes may go on over several lines.  The white space around a line
break does not count.  A single line feed counts as a space, and of several line breaks that start
with a line feed the first is dropped; other line breaks are kept.
-/

namespace IntentGrammar.Yaml

/-- What line breaks between two lines of text stand for. -/
def foldBreaks : List Char → List Char
  | ['\n'] => [' ']
  | '\n' :: more => more
  | breaks => breaks

/-- Text being read, and the white space behind it: the spaces and tabs in front of the first line
break, and the line breaks.  The text and the spaces are kept backwards. -/
structure Draft where
  text : List Char := []
  gaps : List Char := []
  breaks : List Char := []

namespace Draft

/-- The text with the white space behind it taken in, backwards. -/
def join (d : Draft) : List Char :=
  if d.breaks.isEmpty then d.gaps ++ d.text else (foldBreaks d.breaks).reverse ++ d.text

/-- Add a character of text. -/
def push (d : Draft) (c : Char) : Draft := { text := c :: d.join }

/-- Add a space or a tab; behind a line break it does not count. -/
def gap (d : Draft) (c : Char) : Draft :=
  if d.breaks.isEmpty then { d with gaps := c :: d.gaps } else d

/-- Add a line break. -/
def newLine (d : Draft) (c : Char) : Draft := { d with breaks := d.breaks ++ [c] }

/-- White space has been read since the last character of text. -/
def isOpen (d : Draft) : Bool := !d.gaps.isEmpty || !d.breaks.isEmpty

/-- Add white space or a character of text. -/
def add (d : Draft) (c : Char) : Draft :=
  if isBreak c then d.newLine c else if isGap c then d.gap c else d.push c

end Draft

end IntentGrammar.Yaml
