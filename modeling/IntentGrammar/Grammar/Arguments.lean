import IntentGrammar.Grammar.Fault
import IntentGrammar.Text.Blank
import IntentGrammar.Text.Lowercase

/-!
# Header arguments with a meaning

`distribution` says how the sentences without a weight share what the weights leave; `training`
and `testing` say how many utterances an intent should get.  Other arguments mean nothing here.
-/

namespace IntentGrammar

open Text

/-- How the sentences without a weight share what is left to them. -/
inductive Distribution where
  /-- In equal parts. -/
  | even
  /-- In proportion to the number of their expansions. -/
  | regular
  deriving DecidableEq, Repr

/-- The word for a distribution, in lower case and without white space around it. -/
def Distribution.word (text : String) : String := String.ofList (lower (trim text.toList))

/-- Read a distribution, in any case. -/
def Distribution.read? (text : String) : Option Distribution :=
  if Distribution.word text = "even" then some .even
  else if Distribution.word text = "regular" then some .regular
  else none

/-- Counts stay below `2 ^ 64`. -/
def maxCount : Nat := 0xFFFFFFFFFFFFFFFF

/-- Read a count: decimal digits with an optional plus sign and white space around them. -/
def readCount? (text : String) : Option Nat :=
  let digits := match trim text.toList with
    | '+' :: cs => cs
    | cs => cs
  if digits.isEmpty || !digits.all Char.isDigit then none
  else
    let n := digits.foldl (fun n d => 10 * n + (d.toNat - '0'.toNat)) 0
    if n ≤ maxCount then some n else none

/-- What is wrong with the arguments of a definition, if anything: the distribution is looked at
first, then `training`, then `testing`. -/
def argumentFault? (key : Key) (arguments : List (String × String)) : Option Fault :=
  let distribution := do
    let value ← arguments.lookup "distribution"
    if (Distribution.read? value).isSome then none else some (.unknownDistribution value)
  let count (name : String) : Option Fault := do
    let value ← arguments.lookup name
    if key.kind ≠ .intent then some (.countOutsideIntent name key)
    else if (readCount? value).isSome then none
    else some (.badCount name value)
  distribution <|> count "training" <|> count "testing"

end IntentGrammar
