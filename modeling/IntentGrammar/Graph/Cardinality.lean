import IntentGrammar.Graph.Basic

/-!
# Counting expansions

The number of ways to expand a definition is the sum over its sentences of the product over their
steps: optional words count two, an optional reference counts one more than its target.  Numbers
are capped at `2 ^ 128 - 1`.  A definition from which references lead round in a circle has
infinitely many expansions.

A definition is counted when it is first visited, by visiting the targets of its references, and
its counts are kept.  A target that is still being counted when it is visited lies on a circle, and
so does every definition between: its count is unbounded.

A visit goes on only to definitions that are new, so visits nest no deeper than there are
definitions.
-/

namespace IntentGrammar

/-- A number of expansions. -/
inductive Cardinality where
  | finite (n : Nat)
  | unbounded
  deriving DecidableEq, Repr

namespace Cardinality

/-- The largest number that is counted. -/
def cap : Nat := 0xFFFFFFFFFFFFFFFFFFFFFFFFFFFFFFFF

/-- A number, capped. -/
def ofNat (n : Nat) : Cardinality := finite (min n cap)

/-- Exactly one. -/
def one : Cardinality := finite 1

/-- The number, if there is one. -/
def finite? : Cardinality → Option Nat
  | finite n => some n
  | unbounded => none

/-- The number, the largest one if there is none. -/
def toNat : Cardinality → Nat
  | finite n => n
  | unbounded => cap

/-- A number that is not above a limit. -/
def isWithin (c : Cardinality) (limit : Nat) : Bool :=
  match c with
  | finite n => n ≤ limit
  | unbounded => false

/-- The number of ways to do one thing or another. -/
def plus : Cardinality → Cardinality → Cardinality
  | finite a, finite b => ofNat (a + b)
  | _, _ => unbounded

/-- The number of ways to do one thing and another. -/
def times : Cardinality → Cardinality → Cardinality
  | finite a, finite b => ofNat (a * b)
  | _, _ => unbounded

/-- The number in decimal digits. -/
def text : Cardinality → String
  | finite n => toString n
  | unbounded => "unbounded"

end Cardinality

variable {n : Nat}

/-! ### The rule -/

/-- The count of a step, where `count` counts definitions. -/
def Step.countWith {m : Type → Type} [Monad m] (count : Fin n → m Cardinality) :
    Step n → m Cardinality
  | words _ optional => return if optional then .finite 2 else .one
  | reference target optional => do
    let inner ← count target
    return if optional then inner.plus .one else inner

/-- The count of a sentence: the product over its steps. -/
def Choice.countWith {m : Type → Type} [Monad m] (count : Fin n → m Cardinality) (c : Choice n) :
    m Cardinality :=
  c.steps.foldlM (fun total step => return total.times (← step.countWith count)) .one

/-- The count of a step, given those of the definitions. -/
def Step.count (counts : Fin n → Cardinality) (step : Step n) : Cardinality :=
  Id.run (step.countWith counts)

/-- The count of a sentence, given those of the definitions. -/
def Choice.count (counts : Fin n → Cardinality) (c : Choice n) : Cardinality :=
  Id.run (c.countWith counts)

/-- The sum over sentences. -/
def Cardinality.sum (sentences : List Cardinality) : Cardinality :=
  sentences.foldl plus (.finite 0)

/-! ### Visiting the definitions -/

/-- The counts of a definition: of all its expansions, and of those of each sentence in order. -/
structure Tally where
  total : Cardinality
  sentences : List Cardinality
  deriving DecidableEq, Repr

/-- How far the counting of a definition has come. -/
inductive Visit where
  | new
  | active
  | counted (tally : Tally)
  deriving DecidableEq, Repr

/-- The counts that a visit has left behind. -/
def Visit.tally : Visit → Tally
  | counted tally => tally
  | _ => ⟨.one, []⟩

/-- A computation that visits definitions. -/
abbrev Counting (n : Nat) := StateM (Vector Visit n)

/-- Visit a definition and count it, within `fuel` levels of nesting. -/
def Network.visit (net : Network n) (fuel : Nat) (v : Fin n) : Counting n Cardinality := do
  match (← get).get v with
  | .counted tally => return tally.total
  | .active => return .unbounded
  | .new =>
    match fuel with
    | 0 => return .unbounded
    | fuel + 1 =>
      modify fun visits => visits.set v .active v.isLt
      let sentences ← (net.get v).choices.mapM (Choice.countWith (net.visit fuel))
      let tally : Tally := ⟨Cardinality.sum sentences, sentences⟩
      modify fun visits => visits.set v (.counted tally) v.isLt
      return tally.total

/-- The counts of the definitions when they are visited in a given order. -/
def Network.countsBy (net : Network n) (order : List (Fin n)) : Vector Tally n :=
  let visits := order.forM fun v => discard (net.visit n v)
  (visits.run (Vector.replicate n .new)).2.map Visit.tally

/-- The counts of each definition. -/
def Network.counts (net : Network n) : Vector Tally n := net.countsBy (List.finRange n)

end IntentGrammar
