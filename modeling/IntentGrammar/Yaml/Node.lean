import IntentGrammar.Yaml.Token

/-!
# YAML nodes

A document is a tree of scalars, sequences and mappings.  A node may have a label, and an alias
stands for the node that has its label.  A label is the number of names that were known when the
node was reached; since a name may be given again, two nodes may have one label, and the last of
them counts.
-/

namespace IntentGrammar.Yaml

/-- A node of a document. -/
inductive Node where
  | scalar (label : Option Nat) (tag : Option Octets) (style : Style) (text : String)
  | sequence (label : Option Nat) (items : List Node)
  | mapping (label : Option Nat) (entries : List (Node × Node))
  | alias (label : Nat)

namespace Node

/-- The node for a value that is left out. -/
def empty : Node := scalar none none .plain ""

/-- The label of a node; an alias has none of its own. -/
def label? : Node → Option Nat
  | scalar label .. => label
  | sequence label _ => label
  | mapping label _ => label
  | .alias _ => none

mutual

/-- A node and all nodes in it, in the order of the text. -/
def all : Node → List Node
  | sequence label items => sequence label items :: allItems items
  | mapping label entries => mapping label entries :: allEntries entries
  | node => [node]

/-- The nodes in the items of a sequence. -/
def allItems : List Node → List Node
  | [] => []
  | item :: items => item.all ++ allItems items

/-- The nodes in the entries of a mapping. -/
def allEntries : List (Node × Node) → List Node
  | [] => []
  | (key, value) :: entries => key.all ++ value.all ++ allEntries entries

end

/-- The node that a node of a document stands for: itself, or the last one with the label of an
alias. -/
def resolve? (root : Node) : Node → Option Node
  | .alias label => root.all.reverse.find? (·.label? = some label)
  | node => some node

end Node

end IntentGrammar.Yaml
