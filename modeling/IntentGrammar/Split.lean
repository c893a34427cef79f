import IntentGrammar.Checked
import IntentGrammar.Decimal.Nearest
import IntentGrammar.Grammar.Arguments

/-!
# Training and testing

Of the utterances of an intent some are kept for testing.  They are spread evenly: of the first `n`
of `total` utterances, `n * test / total` rounded down are for testing, so that enumerations, which
follow the grammar, test every part of it.

The numbers of a split are words of 64 bits and their products are taken in words of 128 bits, each
step checked.  Beside what is computed stands what is meant: `assign` for `assignWide`, which always
comes to it, and `rescale` for `resize`, which comes to it unless a step does not fit.
-/

namespace IntentGrammar

/-- What an utterance is for. -/
inductive Part where
  | training
  | testing
  deriving DecidableEq, Repr

/-- The word for a part. -/
def Part.text : Part → String
  | training => "training"
  | testing => "testing"

/-- The largest word of 128 bits. -/
def maxWide : Nat := 0xFFFFFFFFFFFFFFFFFFFFFFFFFFFFFFFF

/-- What is left of a number in 64 bits. -/
def narrow (n : Nat) : Nat := n % (maxCount + 1)

/-- How many of an expected number of utterances are for testing. -/
structure Split where
  total : Nat
  test : Nat
  test_le_total : test ≤ total

namespace Split

/-- Nothing is for testing. -/
def none (total : Nat) : Split := ⟨total, 0, Nat.zero_le total⟩

/-- A number of utterances is for testing, at most all. -/
def fixed (total test : Nat) : Split := ⟨total, min test total, Nat.min_le_right test total⟩

/-- A number confined to `[0, 1]`. -/
def clampUnit (x : Float) : Float := if x < 0.0 then 0.0 else if 1.0 < x then 1.0 else x

/-- A fraction is for testing, rounded to the nearest number of utterances. -/
def ofFraction (total : Nat) (fraction : Float) : Split :=
  fixed total (Decimal.nearest total 1 * clampUnit fraction).round.toUInt64.toNat

/-- The same share of fewer utterances, a half rounded up. -/
def rescale (s : Split) (unique : Nat) : Split :=
  if s.total ≤ unique then s
  else fixed unique ((2 * s.test * unique + s.total) / (2 * s.total))

/-- The same share of fewer utterances, a half rounded up, each step in 128 bits. -/
def resize (s : Split) (unique : Nat) : Except Panic Split :=
  if s.total ≤ unique then .ok s
  else do
    let doubled ← checked maxWide .multiplication (2 * s.test)
    let product ← checked maxWide .multiplication (doubled * unique)
    let sum ← checked maxWide .addition (product + s.total)
    let divisor ← checked maxWide .multiplication (2 * s.total)
    return fixed unique (narrow (sum / divisor))

/-- What the utterance at position `k` is for, counted from zero. -/
def assign (s : Split) (k : Nat) : Part :=
  if s.test = 0 ∨ s.total ≤ k then .training
  else if k * s.test / s.total < (k + 1) * s.test / s.total then .testing
  else .training

/-- What the utterance at position `k` is for, each step in 128 bits. -/
def assignWide (s : Split) (k : Nat) : Except Panic Part :=
  if s.test = 0 ∨ s.total ≤ k then .ok .training
  else do
    let next ← checked maxWide .addition (k + 1)
    let behind ← checked maxWide .multiplication (next * s.test)
    let before ← checked maxWide .multiplication (k * s.test)
    return if before / s.total < behind / s.total then .testing else .training

end Split

end IntentGrammar
