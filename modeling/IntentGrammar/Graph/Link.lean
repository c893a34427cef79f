import IntentGrammar.Error
import IntentGrammar.Graph.Basic
import IntentGrammar.Text.Blank

/-!
# From grammars to networks

Every reference is replaced by the number of its target, and the text between references is cut
into words.  A reference to an intent, or to no definition, is refused; the first such reference
in the order of the grammar is reported.
-/

namespace IntentGrammar

/-- The words of a text. -/
def wordsOf (text : String) : List String := (Text.words text.toList).map String.ofList

/-- The position of the last definition with a key. -/
def lastIndex? (definitions : List Definition) (key : Key) : Option (Fin definitions.length) :=
  (List.finRange definitions.length).reverse.find? fun i => (definitions.get i).key = key

/-- The step for an element of a sentence of the definition `within`. -/
def linkElement (definitions : List Definition) (within : Key) :
    Element → Except Error (Step definitions.length)
  | .literal text optional => .ok (.words (wordsOf text) optional)
  | .reference r =>
    if r.kind = .intent then .error (.intentReference within r.target)
    else
      match lastIndex? definitions r.target with
      | some target => .ok (.reference target r.optional)
      | none => .error (.undefinedReference within r.target)

/-- The choice for a sentence of the definition `within`. -/
def linkAlternative (definitions : List Definition) (within : Key) (a : Alternative) :
    Except Error (Choice definitions.length) := do
  let steps ← a.elements.mapM (linkElement definitions within)
  return { steps, weight := a.weight, line := a.line }

/-- The node for a definition. -/
def linkDefinition (definitions : List Definition) (d : Definition) :
    Except Error (Node definitions.length) := do
  let choices ← d.alternatives.mapM (linkAlternative definitions d.key)
  return { key := d.key, arguments := d.arguments, choices }

/-- The network of a list of definitions. -/
def link (definitions : List Definition) : Except Error (Network definitions.length) :=
  (Vector.ofFn definitions.get).mapM (linkDefinition definitions)

end IntentGrammar
