import IntentGrammar.Grammar.Basic

/-!
# What can be wrong with a source text

Every way in which the text of a grammar fails to be one, with its wording, and the position at
which it is reported.  Within a line a position is known by the number of characters from there to
the end of the line, which reading a prefix does not change; the column follows from it.
-/

namespace IntentGrammar

/-- A reason to refuse a source text. -/
inductive Fault where
  | nestedBracket
  | unclosedBracket
  | emptyName
  | emptyVariation
  | repeatedVariation
  | misplacedOptionalMark
  | noHeader
  | unknownSigil (c : Char)
  | optionalHeader
  | intentVariation
  | textAfterHeader
  | unclosedArguments
  | expectedComma (found : Char)
  | expectedColon
  | expectedValue
  | unclosedString
  | repeatedArgument (name : String)
  | unknownDistribution (value : String)
  | countOutsideIntent (name : String) (key : Key)
  | badCount (name value : String)
  | notPercentage (body : String)
  | badWeight (body : String)
  | weightOutOfRange (number : String)
  | emptySegment
  | emptySentence
  | intentInSentence
  | lateWeight
  | unmatchedClose
  | unknownSigilBefore (c : Char)
  | bareBracket
  | sentenceWithoutHeader
  | noSentences (key : Key)
  | repeatedDefinition (key : Key)
  deriving DecidableEq, Repr

/-- The wording of a fault. -/
def Fault.message : Fault → String
  | nestedBracket => "unexpected '[' inside brackets"
  | unclosedBracket => "unterminated '['"
  | emptyName => "empty name"
  | emptyVariation => "empty argument after '#'"
  | repeatedVariation => "only one '#' argument is allowed"
  | misplacedOptionalMark => "'?' is only allowed at the end of a reference"
  | noHeader =>
    "expected a definition header (%[intent], @[slot] or ~[alias]) or an indented sentence"
  | unknownSigil c => s!"unknown sigil '{c}'; expected '%', '@' or '~'"
  | optionalHeader => "a definition header cannot be optional"
  | intentVariation => "intents cannot declare a '#' variation"
  | textAfterHeader => "unexpected text after definition header"
  | unclosedArguments => "unterminated '('"
  | expectedComma found => s!"expected ',' or ')', found '{found}'"
  | expectedColon => "expected ':' after argument name"
  | expectedValue => "expected a quoted string"
  | unclosedString => "unterminated string"
  | repeatedArgument name => s!"duplicate argument '{name}'"
  | unknownDistribution value => s!"unknown distribution '{value}'; expected 'even' or 'regular'"
  | countOutsideIntent name key => s!"'{name}' is only allowed on intents, not on {key.text}"
  | badCount name value => s!"'{name}' must be a non-negative integer, found '{value}'"
  | notPercentage body => s!"weight '{body}' must be a percentage such as *[20%]"
  | badWeight body => s!"invalid weight '{body}'"
  | weightOutOfRange number => s!"weight {number}% must be greater than 0 and at most 100"
  | emptySegment => "empty optional segment"
  | emptySentence => "empty sentence"
  | intentInSentence => "intents cannot be referenced from a sentence"
  | lateWeight => "a weight must be the first thing in a sentence"
  | unmatchedClose => "unmatched ']'"
  | unknownSigilBefore c => s!"unknown sigil '{c}' before '['"
  | bareBracket => "'[' must follow a sigil ('~', '@' or '?')"
  | sentenceWithoutHeader => "indented sentence without a definition header above it"
  | noSentences key => s!"{key.text} has no sentences"
  | repeatedDefinition key => s!"duplicate definition {key.text}"

/-- A fault within a line, with the number of characters from its position to the line's end. -/
structure Stop where
  fault : Fault
  left : Nat
  deriving DecidableEq, Repr

/-- The column, counted from one, from which `left` of the `width` characters of a line are left. -/
def columnOf (width left : Nat) : Nat := width + 1 - left

/-- A fault at its place in the source text, lines and columns counted from one. -/
structure SourceError where
  line : Nat
  column : Nat
  fault : Fault
  deriving DecidableEq, Repr

/-- The wording of a fault with its place. -/
def SourceError.message (e : SourceError) : String :=
  s!"syntax error: {e.fault.message} (line {e.line}, column {e.column})"

/-- The fault on a line of the given number and width. -/
def Stop.onLine (number width : Nat) (s : Stop) : SourceError :=
  ⟨number, columnOf width s.left, s.fault⟩

end IntentGrammar
