import IntentGrammar.Grammar.Arguments
import IntentGrammar.Grammar.Header
import IntentGrammar.Grammar.Sentence
import IntentGrammar.Text.Cut

/-!
# The text of a grammar

The text is made of lines.  A line that starts with a space or a tab is a sentence of the
definition above it; any other line is the header of a definition.  Blank lines, lines that start
with `//` or `#`, and sentences that start with `//` are skipped.  A definition ends where the next
header starts or the text ends, and needs at least one sentence.
-/

namespace IntentGrammar

open Text

/-! ### Lines -/

/-- The text cut at its line feeds. -/
def splitLines (source : List Char) : List (List Char) := cut '\n' source

/-- A line with its number, without the white space it ends with. -/
structure Line where
  number : Nat
  text : List Char
  deriving DecidableEq, Repr

/-- The lines of a text, numbered from one. -/
def linesOf (source : List Char) : List Line :=
  (splitLines source).zipIdx.map fun (text, i) => ⟨i + 1, trimEnd text⟩

/-- What a line is. -/
inductive LineForm where
  | skipped
  | sentence (text : List Char)
  | header (text : List Char)
  deriving DecidableEq, Repr

/-- The text starts with two slashes. -/
def startsComment (cs : List Char) : Bool := ['/', '/'].isPrefixOf cs

/-- Tell what a line is. -/
def Line.form (l : Line) : LineForm :=
  match l.text with
  | [] => .skipped
  | c :: _ =>
    if isIndent c then
      if startsComment (skipIndent l.text) then .skipped else .sentence (skipIndent l.text)
    else if startsComment l.text || c = '#' then .skipped
    else .header l.text

/-! ### Definitions -/

/-- The definitions that are complete, and the one that sentences are being added to. -/
structure Reading where
  complete : List Definition := []
  current : Option Definition := none

/-- Complete the current definition, which must have a sentence. -/
def Reading.close (r : Reading) : Except SourceError (List Definition) :=
  match r.current with
  | none => .ok r.complete
  | some d =>
    if d.alternatives.isEmpty then .error ⟨d.line, 1, .noSentences d.key⟩
    else .ok (r.complete ++ [d])

/-- Read the header on a line. -/
def Line.readHeader (l : Line) (text : List Char) : Except SourceError Definition := do
  let (key, arguments) ←
    (IntentGrammar.readHeader text).mapError (Stop.onLine l.number l.text.length)
  match argumentFault? key arguments with
  | some fault => throw ⟨l.number, 1, fault⟩
  | none => return { key, arguments, alternatives := [], line := l.number }

/-- Read the sentence on a line.  What reading leaves of the text is dropped. -/
def Line.readSentence (l : Line) (text : List Char) : Except SourceError Alternative := do
  let (alternative, _) ← (IntentGrammar.readSentence l.number l.text.length text).mapError
    (Stop.onLine l.number l.text.length)
  return alternative

/-- Take one line into account. -/
def Reading.step (r : Reading) (l : Line) : Except SourceError Reading :=
  match l.form with
  | .skipped => .ok r
  | .sentence text =>
    match r.current with
    | none => .error ⟨l.number, columnOf l.text.length text.length, .sentenceWithoutHeader⟩
    | some d => do
      let alternative ← l.readSentence text
      return { r with current := some { d with alternatives := d.alternatives ++ [alternative] } }
  | .header text => do
    let complete ← r.close
    let d ← l.readHeader text
    if d.key ∈ complete.map (·.key) then throw ⟨l.number, 1, .repeatedDefinition d.key⟩
    return { complete, current := some d }

/-- The definitions in a text. -/
def readDefinitions (source : List Char) : Except SourceError (List Definition) := do
  let reading ← (linesOf source).foldlM Reading.step {}
  reading.close

/-- Read the text of a grammar. -/
def Grammar.read (source : String) : Except SourceError Grammar := do
  let definitions ← readDefinitions source.toList
  return { definitions, source }

end IntentGrammar
