import IntentGrammar.Text.Ranges

/-!
# White space

The characters with the Unicode property White_Space, trimming, and the words that white space
separates.  Within a line only a space or a tab indents; everywhere else any blank counts.
-/

namespace IntentGrammar.Text

/-- The code points with the property White_Space. -/
def blankRanges : Ranges :=
  [(0x9, 0xD), (0x20, 0x20), (0x85, 0x85), (0xA0, 0xA0), (0x1680, 0x1680), (0x2000, 0x200A),
   (0x2028, 0x2029), (0x202F, 0x202F), (0x205F, 0x205F), (0x3000, 0x3000)]

/-- A character of white space. -/
def isBlank (c : Char) : Bool := blankRanges.has c

/-- A space or a tab: what indents a sentence and may stand between the parts of a header. -/
def isIndent (c : Char) : Bool := c = ' ' || c = '\t'

/-- The text without the white space it starts with. -/
def trimStart (cs : List Char) : List Char := cs.dropWhile isBlank

/-- The text without the white space it ends with. -/
def trimEnd (cs : List Char) : List Char := (cs.reverse.dropWhile isBlank).reverse

/-- The text without white space at either end. -/
def trim (cs : List Char) : List Char := trimEnd (trimStart cs)

/-- The text without the spaces and tabs it starts with. -/
def skipIndent (cs : List Char) : List Char := cs.dropWhile isIndent

/-- The longest runs without white space, in order. -/
def words : List Char → List (List Char)
  | [] => []
  | c :: cs =>
    if isBlank c then words cs
    else
      match cs, words cs with
      | d :: _, w :: ws => if isBlank d then [c] :: w :: ws else (c :: w) :: ws
      | _, ws => [c] :: ws

end IntentGrammar.Text
