import IntentGrammar.Graph.Build
import IntentGrammar.Utterance

/-!
# Expanding definitions

To expand a definition is to choose one of its sentences and to expand the steps of that sentence.
The tokens of an alias stand in the sentence that refers to it as they are; those of a slot become
one entity, or nothing if there are none.
-/

namespace IntentGrammar

/-- The tokens of an expanded definition, and the wording that the sentence chosen is. -/
structure Expansion where
  tokens : List Token
  synonym : Option String
  deriving DecidableEq, Repr

/-- What an expansion of the definition with a key contributes to the sentence that refers to it. -/
def Expansion.place (key : Key) (e : Expansion) : List Token :=
  if key.kind = .slot then
    if e.tokens.isEmpty then [] else [.entity key.name (Utterance.text e.tokens) e.synonym]
  else e.tokens

/-- The tokens of plain words. -/
def wordTokens (words : List String) : List Token := words.map .word

/-- The wording that a sentence gives to the value of a slot. -/
def Graph.synonym? (g : Graph) (v : Fin g.size) (c : Choice g.size) : Option String :=
  g.network.synonym? (g.node v) c

end IntentGrammar
