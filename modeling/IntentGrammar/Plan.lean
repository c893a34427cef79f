import IntentGrammar.Graph.Build
import IntentGrammar.Split

/-!
# Plans

For every intent a plan says how its utterances are made, how many are wanted, and how they are
split.  Few expansions are enumerated, many are sampled.  The header of an intent may set the
numbers for training and testing, which then replace those of the run.  Their sum is checked: if it
is too large, there is no plan, and the program stops.
-/

namespace IntentGrammar

/-- How the utterances of an intent are made. -/
inductive Strategy where
  /-- Every expansion is enumerated. -/
  | exhaustive (paths : Nat)
  /-- Expansions are drawn. -/
  | sampled (draws : Nat)
  deriving DecidableEq, Repr

/-- The seed for an intent: the first eight bytes of a hash of the seed of the run, the lowest byte
first, and the name of the intent. -/
def intentSeed (seed : UInt64) (intent : String) : UInt64 :=
  let seedBytes := (List.range 8).map fun i => (seed >>> (8 * i).toUInt64).toUInt8
  let digest := Sha256.hash (seedBytes ++ intent.toUTF8.toList)
  (digest.take 8).foldr (fun byte word => (word <<< 8) ||| byte.toUInt64) 0

/-- How an intent is generated. -/
structure Plan (g : Graph) where
  intent : Fin g.size
  name : String
  strategy : Strategy
  /-- The number of different utterances to stop at. -/
  target : Nat
  /-- The number asked for; fewer are worth a warning. -/
  requested : Option Nat
  split : Split
  seed : UInt64

/-- What is needed to generate utterances. -/
structure Generator where
  graph : Graph
  settings : Settings
  seed : UInt64

/-- The amount that an intent asks for in its header, and the number for testing in it. -/
def Node.ownAmount? {n : Nat} (v : Node n) : Except Panic (Option (Amount × Nat)) :=
  let count (name : String) : Option Nat := (v.argument? name).bind readCount?
  match count "training", count "testing" with
  | none, none => .ok none
  | training, testing => do
    let total ← checked maxCount .addition (training.getD 0 + testing.getD 0)
    return some (.samples total, testing.getD 0)

/-- Strategy, target and requested number for an amount of a definition with so many expansions. -/
def chooseStrategy (ceiling : Nat) (paths : Cardinality) :
    Amount → Strategy × Nat × Option Nat
  | .all =>
    match paths.finite?.filter (· ≤ ceiling) with
    | some n => (.exhaustive n, n, none)
    | none => (.sampled ceiling, ceiling, none)
  | .samples n =>
    match paths.finite?.filter (· ≤ n) with
    | some p => (.exhaustive p, n, some n)
    | none => (.sampled n, n, some n)

/-- The number of utterances that a strategy can be expected to reach. -/
def Strategy.expected (target : Nat) : Strategy → Nat
  | exhaustive paths => min target paths
  | sampled draws => draws

namespace Generator

/-- The plan for the intent at a number.  `own` is what its header asks for. -/
def planAt (gen : Generator) (intent : Fin gen.graph.size) (name : String)
    (own : Option (Amount × Nat)) (request : Request) : Plan gen.graph :=
  let amount := (own.map (·.1)).getD request.amount
  let (strategy, target, requested) :=
    chooseStrategy gen.settings.exhaustiveCeiling (gen.graph.count intent) amount
  let expected := strategy.expected target
  let split := match own, request.testFraction with
    | some (_, test), _ => Split.fixed expected test
    | none, some fraction => Split.ofFraction expected fraction
    | none, none => Split.none expected
  { intent, name, strategy, target, requested, split, seed := intentSeed gen.seed name }

/-- The plan for the intent with a name. -/
def plan (gen : Generator) (name : String) (request : Request) :
    Except Error (Plan gen.graph) :=
  match gen.graph.intent? name with
  | none => .error (.unknownIntent name)
  | some intent =>
    match (gen.graph.node intent).ownAmount? with
    | .ok own => .ok (gen.planAt intent name own request)
    | .error p => .error (.panic p)

/-- The plans for all intents in order. -/
def plans (gen : Generator) (request : Request) : Except Error (List (Plan gen.graph)) :=
  gen.graph.intents.mapM fun v => gen.plan (gen.graph.node v).key.name request

end Generator

end IntentGrammar
