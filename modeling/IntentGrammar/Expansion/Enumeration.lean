import IntentGrammar.Expansion.Basic

/-!
# The expansions of a definition, by number

The expansions of a definition are numbered from zero: all those of its first sentence, then those
of the second, and so on.  Those of one sentence are numbered in mixed radix, one digit a step and
the first step most significant.  The digit of an optional step is least where the step is present;
the largest digit of an optional reference stands for leaving it out.

Expanding by number needs no memory of the expansions before.
-/

namespace IntentGrammar

/-- The digits of a number in mixed radix, the first most significant, and what is carried out. -/
def mixedDigits : List Nat → Nat → List Nat × Nat
  | [], n => ([], n)
  | radix :: radices, n =>
    let (digits, carry) := mixedDigits radices n
    (carry % radix :: digits, carry / radix)

/-- The sentence in which a number falls, where sentences stand with their numbers of expansions,
and the number within the sentence. -/
def locate? {n : Nat} : List (Choice n × Cardinality) → Nat → Option (Choice n × Nat)
  | [], _ => none
  | (c, size) :: rest, index =>
    if index < size.toNat then some (c, index) else locate? rest (index - size.toNat)

namespace Graph

variable (g : Graph)

/-- The number of digits that a step can have. -/
def radix (step : Step g.size) : Nat := (step.count g.count).toNat

/-- The tokens of a step with its digit, where `expand` expands definitions by number. -/
def stepAt? (expand : Fin g.size → Nat → Option Expansion) (step : Step g.size) (digit : Nat) :
    Option (List Token) :=
  match step with
  | .words words optional => some (if optional && digit != 0 then [] else wordTokens words)
  | .reference target optional =>
    if optional && digit == (g.count target).toNat then some []
    else (expand target digit).map (Expansion.place (g.node target).key)

/-- The expansion with a number of a definition, within `fuel` levels of nesting. -/
def expandAt? (fuel : Nat) (v : Fin g.size) (index : Nat) : Option Expansion :=
  match fuel with
  | 0 => none
  | fuel + 1 => do
    let (c, index) ← locate? (g.counted v) index
    let (digits, _) := mixedDigits (c.steps.map g.radix) index
    let parts ← (c.steps.zip digits).mapM fun (step, digit) =>
      g.stepAt? (expandAt? fuel) step digit
    return ⟨parts.flatten, g.synonym? v c⟩

/-- The utterance with a number.  Where the count of a definition is finite, no definition is
nested in itself, so there are as many levels as definitions at most. -/
def utteranceAt? (v : Fin g.size) (index : Nat) : Option Utterance :=
  (g.expandAt? g.size v index).map Expansion.tokens

end Graph

end IntentGrammar
