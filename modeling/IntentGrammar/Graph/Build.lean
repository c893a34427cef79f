import IntentGrammar.Graph.Cycle
import IntentGrammar.Graph.Link
import IntentGrammar.Graph.Nesting
import IntentGrammar.Graph.Weight
import IntentGrammar.Grammar.Source

/-!
# Graphs ready for generation

A grammar is linked and counted, its weights become probabilities, and it is refused if its
required references lead round in a circle or if a slot contains a slot.  What is wrong is reported
in this order: references, weights, circles, slots.
-/

namespace IntentGrammar

/-- A network that has passed every check, with the counts and probabilities of its sentences. -/
structure Graph where
  size : Nat
  network : Network size
  counts : Vector Tally size
  probabilities : Vector (List Float) size
  contentHash : String

namespace Graph

/-- A definition. -/
def node (g : Graph) (v : Fin g.size) : Node g.size := g.network.get v

/-- The number of expansions of a definition. -/
def count (g : Graph) (v : Fin g.size) : Cardinality := (g.counts.get v).total

/-- The number of expansions of a sentence. -/
def choiceCount (g : Graph) (c : Choice g.size) : Cardinality := c.count g.count

/-- The sentences of a definition with their numbers of expansions. -/
def counted (g : Graph) (v : Fin g.size) : List (Choice g.size × Cardinality) :=
  (g.node v).choices.zip (g.counts.get v).sentences

/-- The sentences of a definition with their probabilities. -/
def weighted (g : Graph) (v : Fin g.size) : List (Choice g.size × Float) :=
  (g.node v).choices.zip (g.probabilities.get v)

/-- The definitions of intents, in order. -/
def intents (g : Graph) : List (Fin g.size) :=
  (List.finRange g.size).filter fun v => (g.node v).key.kind = .intent

/-- The last definition with a key. -/
def find? (g : Graph) (key : Key) : Option (Fin g.size) :=
  (List.finRange g.size).reverse.find? fun v => (g.node v).key = key

/-- The definition of an intent. -/
def intent? (g : Graph) (name : String) : Option (Fin g.size) := g.find? ⟨.intent, name, none⟩

end Graph

variable {n : Nat}

/-- The distribution that a definition asks for. -/
def Node.distribution (v : Node n) : Distribution :=
  ((v.argument? "distribution").bind Distribution.read?).getD .even

/-- The probabilities of the sentences of a definition with the counts of these sentences. -/
def Node.probabilities (ceiling : Nat) (v : Node n) (counts : List Cardinality) :
    Except Error (List Float) :=
  let sentences := (v.choices.map Choice.weight).zip counts
  (Weight.probabilities v.distribution ceiling sentences).mapError fun
    | .noSentences => .emptyDefinition v.key
    | .overHundred total => .weightOverflow v.key total

/-- Refuse a network with a circle of required references or with nested slots. -/
def Network.check (net : Network n) : Except Error Unit :=
  let key (v : Fin n) : Key := (net.get v).key
  match net.circle? with
  | some circle => .error (.cyclicDefinition (circle.map key))
  | none =>
    match net.nestedSlots? with
    | some (slot, nested) => .error (.nestedSlot (key slot) (key nested))
    | none => .ok ()

/-- Build the graph of a grammar.  Counts above the ceiling weigh no more than the ceiling. -/
def Graph.build (grammar : Grammar) (ceiling : Nat) : Except Error Graph := do
  let network ← link grammar.definitions
  let counts := network.counts
  let probabilities ← (network.zip counts).mapM fun (v, tally) =>
    v.probabilities ceiling tally.sentences
  network.check
  return { size := _, network, counts, probabilities, contentHash := grammar.contentHash }

/-- Read a grammar and build its graph, once the settings have been checked. -/
def compile (source : String) (settings : Settings) : Except Error Graph := do
  match settings.fault? with
  | some fault => throw (.settingsInvalid fault)
  | none =>
    let grammar ← (Grammar.read source).mapError .source
    Graph.build grammar settings.exhaustiveCeiling

end IntentGrammar
