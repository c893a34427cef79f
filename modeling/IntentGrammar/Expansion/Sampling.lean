import IntentGrammar.Expansion.Basic
import IntentGrammar.Random.Words

/-!
# Random expansions

A random expansion chooses a sentence by the probabilities of the definition and then decides, step
by step, which optional parts are present.  From a given depth on optional references are left out
without a draw.  Since required references never lead round in a circle, what is nested below that
depth ends after as many levels as there are definitions.
-/

namespace IntentGrammar

/-- The first sentence at which the probabilities add up to more than `roll`, not counting those
that are not positive; if rounding leaves the sum short, the last positive one. -/
def rouletteFrom {α : Type} (roll sum : Float) (last : Option α) : List (α × Float) → Option α
  | [] => last
  | (a, p) :: rest =>
    if 0.0 < p then
      if roll < sum + p then some a else rouletteFrom roll (sum + p) (some a) rest
    else rouletteFrom roll sum last rest

/-- The sentence that a roll in `[0, 1)` picks, the first one if no probability is positive. -/
def roulette {α : Type} (roll : Float) (choices : List (α × Float)) : Option α :=
  rouletteFrom roll 0.0 none choices <|> (choices.head?.map (·.1))

namespace Graph

variable {σ : Type} [WordSource σ] (g : Graph)

/-- Draw whether a reference is present at a depth. -/
def drawPresent (settings : Settings) (depth : Nat) (optional : Bool) : Drawing σ Bool :=
  if !optional then return true
  else if settings.maxDepth ≤ depth then return false
  else drawBool settings.optionalProbability

/-- Draw the tokens of a step at a depth, where `expand` draws the expansion of a definition one
level further down. -/
def drawStep (settings : Settings) (expand : Fin g.size → Drawing σ Expansion) (depth : Nat) :
    Step g.size → Drawing σ (List Token)
  | .words words optional => do
    let present ← if optional then drawBool settings.optionalProbability else pure true
    return if present then wordTokens words else []
  | .reference target optional => do
    if ← drawPresent settings depth optional then
      return (← expand target).place (g.node target).key
    else return []

/-- Draw an expansion of a definition at a depth, within `fuel` levels of nesting. -/
def drawExpansion (settings : Settings) (fuel depth : Nat) (v : Fin g.size) :
    Drawing σ Expansion :=
  match fuel with
  | 0 => failure
  | fuel + 1 => do
    let roll ← drawUnit
    match roulette roll (g.weighted v) with
    | none => failure
    | some c =>
      let parts ← c.steps.mapM
        (g.drawStep settings (drawExpansion settings fuel (depth + 1)) depth)
      return ⟨parts.flatten, g.synonym? v c⟩

/-- Draw an utterance. -/
def drawUtterance (settings : Settings) (v : Fin g.size) : Drawing σ Utterance := do
  let e ← g.drawExpansion settings (settings.maxDepth + g.size) 0 v
  return e.tokens

end Graph

end IntentGrammar
