/-!
# Utterances

An utterance is a sequence of tokens: plain words, and entities, which are the values of slots.
Two utterances with the same text count as the same.
-/

namespace IntentGrammar

/-- A part of an utterance. -/
inductive Token where
  | word (text : String)
  /-- A value of a slot, and the name of the alias that spelled it, if one did. -/
  | entity (slot value : String) (synonym : Option String)
  deriving DecidableEq, Repr

namespace Token

/-- The text of a token as it stands in the utterance. -/
def text : Token → String
  | word text => text
  | entity _ value _ => value

/-- The token is a value of a slot. -/
def isEntity : Token → Bool
  | word _ => false
  | entity _ _ _ => true

end Token

/-- A sequence of tokens. -/
abbrev Utterance := List Token

/-- A text followed by another, with a space between them unless the first is empty. -/
def joinWords (text next : String) : String :=
  if text.isEmpty then next else text ++ " " ++ next

/-- The texts of the tokens with single spaces between them. -/
def Utterance.text (u : Utterance) : String :=
  u.foldl (fun text token => joinWords text token.text) ""

/-- The tokens that are values of slots. -/
def Utterance.entities (u : Utterance) : List Token := u.filter Token.isEntity

end IntentGrammar
