import IntentGrammar.Grammar.Basic

/-!
# Networks of definitions

In a network the definitions are numbered and every reference holds the number of its target, so
that walking through it never looks up a name.
-/

namespace IntentGrammar

/-- A part of a sentence: words, or a reference to one of `n` definitions. -/
inductive Step (n : Nat) where
  | words (words : List String) (optional : Bool)
  | reference (target : Fin n) (optional : Bool)
  deriving DecidableEq, Repr

/-- The target of a reference and whether the reference is optional. -/
def Step.link? {n : Nat} : Step n → Option (Fin n × Bool)
  | words _ _ => none
  | reference target optional => some (target, optional)

/-- A sentence in a network. -/
structure Choice (n : Nat) where
  steps : List (Step n)
  weight : Option Float
  line : Nat
  deriving Repr

/-- A definition in a network. -/
structure Node (n : Nat) where
  key : Key
  arguments : List (String × String)
  choices : List (Choice n)
  deriving Repr

namespace Node

variable {n : Nat}

/-- The value of a header argument. -/
def argument? (v : Node n) (name : String) : Option String := v.arguments.lookup name

/-- The references in the sentences of a definition, in order. -/
def links (v : Node n) : List (Fin n × Bool) :=
  v.choices.flatMap fun c => c.steps.filterMap Step.link?

/-- The targets of all references. -/
def targets (v : Node n) : List (Fin n) := v.links.map (·.1)

/-- The targets of the references that cannot be left out. -/
def required (v : Node n) : List (Fin n) := (v.links.filter (!·.2)).map (·.1)

end Node

/-- Definitions that refer to each other by number. -/
abbrev Network (n : Nat) := Vector (Node n) n

/-- The wording that a sentence of a slot gives to a value: a sentence that is nothing but one
reference spells the name of its target. -/
def Network.synonym? {n : Nat} (net : Network n) (v : Node n) (c : Choice n) : Option String :=
  match v.key.kind, c.steps with
  | .slot, [.reference target false] => some (net.get target).key.name
  | _, _ => none

end IntentGrammar
