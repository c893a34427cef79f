import IntentGrammar.Grammar.Fault
import IntentGrammar.Text.Blank

/-!
# Brackets and what stands in them

A header and a reference name a definition between brackets: a name, a variation behind `#`, and
for an optional reference a final `?`.  Brackets do not nest.
-/

namespace IntentGrammar

open Text

/-- Neither an opening nor a closing bracket. -/
def isPlain (c : Char) : Bool := c != '[' && c != ']'

/-- The text up to the closing bracket and what follows the bracket.  A missing closing bracket is
reported where `opened` characters of the line are left. -/
def bracketBody (opened : Nat) (cs : List Char) : Except Stop (List Char × List Char) :=
  match cs.dropWhile isPlain with
  | [] => .error ⟨.unclosedBracket, opened⟩
  | c :: rest =>
    if c = ']' then .ok (cs.takeWhile isPlain, rest)
    else .error ⟨.nestedBracket, rest.length + 1⟩

theorem length_dropWhile_le (p : Char → Bool) (cs : List Char) :
    (cs.dropWhile p).length ≤ cs.length := by
  induction cs with
  | nil => simp
  | cons c cs ih =>
    rw [List.dropWhile_cons]
    split
    · exact Nat.le_succ_of_le ih
    · exact Nat.le_refl _

/-- What follows the closing bracket is shorter than what was read. -/
theorem length_lt_of_bracketBody {opened : Nat} {cs body rest : List Char}
    (h : bracketBody opened cs = .ok (body, rest)) : rest.length < cs.length := by
  have hle := length_dropWhile_le isPlain cs
  unfold bracketBody at h
  split at h
  · cases h
  · rename_i c tail hdrop
    rw [hdrop] at hle
    split at h
    · cases h
      exact hle
    · cases h

/-- The parts of a name between brackets. -/
structure Label where
  name : String
  variation : Option String
  optional : Bool
  deriving DecidableEq, Repr

/-- Name and variation, which a `#` separates. -/
def Label.split (text : List Char) (optional : Bool) : Except Fault Label :=
  match text.dropWhile (· != '#') with
  | [] =>
    if text.isEmpty then .error .emptyName
    else .ok ⟨String.ofList text, none, optional⟩
  | _ :: behind =>
    let name := trim (text.takeWhile (· != '#'))
    let variation := trim behind
    if name.isEmpty then .error .emptyName
    else if variation.isEmpty then .error .emptyVariation
    else if '#' ∈ variation then .error .repeatedVariation
    else .ok ⟨String.ofList name, some (String.ofList variation), optional⟩

/-- Read `name#variation?`, with white space around each part. -/
def Label.read (body : List Char) : Except Fault Label :=
  let text := trim body
  let optional := text.getLast? == some '?'
  let text := if optional then trimEnd text.dropLast else text
  if '?' ∈ text then .error .misplacedOptionalMark
  else Label.split text optional

end IntentGrammar
