import IntentGrammar.Record.Basic
import IntentGrammar.Utterance

/-!
# Utterances in JSON

An utterance is an array of records, one for each token: a word with its text, or an entity with
its slot, its value and, unless it is null, the name of the alias that spelled it.
-/

namespace IntentGrammar

/-- The record of a token. -/
def Token.toJson : Token → Json
  | word text => .object [("type", .string "word"), ("text", .string text)]
  | entity slot value synonym =>
    .object [("type", .string "entity"), ("slot", .string slot), ("value", .string value),
      ("synonym", Json.ofOption .string synonym)]

/-- Read the record of a token. -/
def Token.ofJson? (j : Json) : Option Token := do
  let (kind, body) ← j.tagged? "type"
  if kind = "word" then
    match ← body.fields? ["text"] with
    | [text] => return word (← text.string?)
    | _ => none
  else if kind = "entity" then
    match ← body.fields? ["slot", "value", "synonym"] with
    | [slot, value, synonym] =>
      return entity (← slot.string?) (← value.string?) (← synonym.optionalString?)
    | _ => none
  else none

/-- The array of the records of the tokens. -/
def Utterance.toJson (u : Utterance) : Json := Json.ofList Token.toJson u

/-- Read an array of records of tokens. -/
def Utterance.ofJson? (j : Json) : Option Utterance := Json.listOf? Token.ofJson? j

end IntentGrammar
