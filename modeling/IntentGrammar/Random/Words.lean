/-!
# Random words

Sampling draws 64-bit words one after another.  Where they come from is left open: a source is any
state that yields a word and the state after it, so what holds of sampling for every source holds
whatever the words are.
-/

namespace IntentGrammar

/-- A source of 64-bit words. -/
class WordSource (σ : Type) where
  next : σ → UInt64 × σ

/-- A number in `[0, 1)`: the high 52 bits of a word behind the binary point. -/
def unitFloat (word : UInt64) : Float :=
  Float.ofBits ((0x3FF0000000000000 : UInt64) ||| (word >>> 12)) - 1.0

/-- The number of words that count as a hit for the probability `p` in `[0, 1)`. -/
def hitBound (p : Float) : UInt64 := (p * 18446744073709551616.0).toUInt64

/-- A computation that draws words, and may fail. -/
abbrev Drawing (σ : Type) := StateT σ Option

variable {σ : Type} [WordSource σ]

/-- Draw a word. -/
def drawWord : Drawing σ UInt64 := modifyGet WordSource.next

/-- Draw a number in `[0, 1)`. -/
def drawUnit : Drawing σ Float := do
  return unitFloat (← drawWord)

/-- Decide with probability `p`.  Certainty draws nothing; an impossible event still draws. -/
def drawBool (p : Float) : Drawing σ Bool := do
  if p == 1.0 then return true
  else return (← drawWord) < hitBound p

end IntentGrammar
