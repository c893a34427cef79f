import IntentGrammar.Error
import IntentGrammar.Grammar.Arguments
import IntentGrammar.Graph.Cardinality

/-!
# Weights and probabilities

Every sentence of a definition gets a probability.  Weights in percent are taken as they are, and
the sentences without one share what the weights leave of a hundred, in equal parts or in
proportion to their numbers of expansions.  If every sentence has a weight, the weights are scaled
to a hundred; if they are all zero, the sentences get equal parts.

The rule is written for any kind of number, in a fixed order of operations: binary64 is what
programs run on, and with exact fractions the rule can be reasoned about.
-/

namespace IntentGrammar

/-- The arithmetic that weights need. -/
class WeightNumber (α : Type) where
  ofNat : Nat → α
  add : α → α → α
  sub : α → α → α
  mul : α → α → α
  div : α → α → α
  lt : α → α → Bool
  le : α → α → Bool
  /-- What weights may exceed a hundred by, and what counts as zero. -/
  tolerance : α

instance : WeightNumber Float where
  ofNat n := Decimal.nearest n 1
  add := (· + ·)
  sub := (· - ·)
  mul := (· * ·)
  div := (· / ·)
  lt a b := a < b
  le a b := a ≤ b
  tolerance := 1e-9

/-- Why weights are refused. -/
inductive WeightFault (α : Type) where
  | noSentences
  | overHundred (total : α)
  deriving Repr

namespace Weight

open WeightNumber

variable {α : Type} [WeightNumber α]

/-- The sum, from the left. -/
def sum (xs : List α) : α := xs.foldl add (ofNat 0)

/-- `x`, or zero if `x` is not positive. -/
def positivePart (x : α) : α := if lt (ofNat 0) x then x else ofNat 0

/-- The size of the part that a sentence without a weight claims. -/
def share (distribution : Distribution) (ceiling : Nat) (size : Cardinality) : α :=
  match distribution with
  | .even => ofNat 1
  | .regular => ofNat (min ((size.finite?).getD ceiling) ceiling)

/-- The probability of a sentence, where the sentences without a weight, `unweighted` of them,
divide `remaining` and claim `shareTotal` together. -/
def resolve (distribution : Distribution) (ceiling unweighted : Nat) (remaining shareTotal : α) :
    Option α × Cardinality → α
  | (some w, _) => div w (ofNat 100)
  | (none, size) =>
    if lt (ofNat 0) shareTotal then
      div (mul remaining (share distribution ceiling size)) shareTotal
    else div remaining (ofNat unweighted)

/-- The probabilities of sentences, each with its weight and its number of expansions. -/
def probabilities (distribution : Distribution) (ceiling : Nat)
    (sentences : List (Option α × Cardinality)) : Except (WeightFault α) (List α) :=
  let explicit := sum (sentences.filterMap (·.1))
  let unweighted := sentences.filter (·.1.isNone)
  if sentences.isEmpty then .error .noSentences
  else if lt (add (ofNat 100) tolerance) explicit then .error (.overHundred explicit)
  else if unweighted.isEmpty then
    if le explicit tolerance then
      .ok (sentences.map fun _ => div (ofNat 1) (ofNat sentences.length))
    else .ok (sentences.map fun s => div (s.1.getD (ofNat 0)) explicit)
  else
    let remaining := positivePart (div (sub (ofNat 100) explicit) (ofNat 100))
    let shareTotal := sum (unweighted.map fun s => share distribution ceiling s.2)
    .ok (sentences.map (resolve distribution ceiling unweighted.length remaining shareTotal))

end Weight

end IntentGrammar
