import IntentGrammar.Cancellation
import IntentGrammar.Expansion.Enumeration
import IntentGrammar.Expansion.Sampling
import IntentGrammar.Plan
import IntentGrammar.Random.ChaCha12
import Std.Data.HashSet

/-!
# Streams of different utterances

The stream of a plan goes through its source, the enumeration of the intent or a bounded number of
draws, and passes on every utterance whose text is new, until the target is reached.  Before each
look at the source it asks whether it has been cancelled.
-/

namespace IntentGrammar

/-- Where a stream stands in its source: at the number of an expansion, or at a state of the
generator of random words. -/
inductive Position where
  | path (index : Nat)
  | draw (source : ChaCha12.Generator)

/-- A stream of the utterances of an intent. -/
structure Stream where
  position : Position
  /-- How often the source can still be looked at. -/
  left : Nat
  seen : Std.HashSet String
  produced : Nat
  target : Nat
  split : Split
  cancelled : Bool

/-- An utterance with what it is for. -/
abbrev Labelled := Part × Utterance

/-- Look at the source of an intent once. -/
def Generator.pull? (gen : Generator) (intent : Fin gen.graph.size) :
    Position → Option (Utterance × Position)
  | .path index => (gen.graph.utteranceAt? intent index).map fun u => (u, .path (index + 1))
  | .draw source =>
    (gen.graph.drawUtterance gen.settings intent source).map fun (u, source) => (u, .draw source)

namespace Stream

/-- Look for a new utterance in what is left of the source. -/
def seek (pull? : Position → Option (Utterance × Position)) (s : Stream) (left : Nat)
    (position : Position) (c : Cancellation) : Option Labelled × Stream × Cancellation :=
  match c.check with
  | (true, c) => (none, { s with position, left, cancelled := true }, c)
  | (false, c) =>
    match left with
    | 0 => (none, { s with position, left := 0 }, c)
    | left + 1 =>
      match pull? position with
      | none => (none, { s with position, left := 0 }, c)
      | some (u, position) =>
        if s.seen.contains (Utterance.text u) then seek pull? s left position c
        else
          (some (s.split.assign s.produced, u),
            { s with
              position, left
              seen := s.seen.insert (Utterance.text u)
              produced := s.produced + 1 }, c)

/-- The next utterance, if there is one. -/
def next (pull? : Position → Option (Utterance × Position)) (s : Stream) (c : Cancellation) :
    Option Labelled × Stream × Cancellation :=
  if s.target ≤ s.produced || s.cancelled then (none, s, c)
  else s.seek pull? s.left s.position c

/-- The next `n` utterances, or as many as there are. -/
def take (pull? : Position → Option (Utterance × Position)) :
    Nat → Stream → Cancellation → List Labelled × Stream × Cancellation
  | 0, s, c => ([], s, c)
  | n + 1, s, c =>
    match s.next pull? c with
    | (none, s, c) => ([], s, c)
    | (some x, s, c) =>
      let (xs, s, c) := take pull? n s c
      (x :: xs, s, c)

end Stream

namespace Generator

variable (gen : Generator)

/-- The stream of a plan from its start, with a split of its own. -/
def start (plan : Plan gen.graph) (split : Split) : Stream :=
  let (position, left) := match plan.strategy with
    | .exhaustive _ => (Position.path 0, (gen.graph.count plan.intent).toNat)
    | .sampled _ =>
      (.draw (.ofSeed plan.seed), min (gen.settings.attemptsPerExample * plan.target) maxCount)
  { position, left, seen := {}, produced := 0, target := plan.target, split, cancelled := false }

/-- The utterances that a stream still yields. -/
def rest (plan : Plan gen.graph) (s : Stream) (c : Cancellation) :
    List Labelled × Stream × Cancellation :=
  s.take (gen.pull? plan.intent) (s.target - s.produced) c

/-- The split for what the plan can really reach: if something is kept for testing, the different
utterances are counted first.  A stream keeps every text it has yielded, so they are far fewer than
`2 ^ 63`, and for so few `Split.resize` comes to this. -/
def fitSplit (plan : Plan gen.graph) (c : Cancellation) : Split × Cancellation :=
  if 0 < plan.split.test then
    let (counted, _, c) := gen.rest plan (gen.start plan (Split.none plan.target)) c
    (plan.split.rescale counted.length, c)
  else (plan.split, c)

/-- The stream of a plan. -/
def stream (plan : Plan gen.graph) (c : Cancellation) : Stream × Cancellation :=
  let (split, c) := gen.fitSplit plan c
  (gen.start plan split, c)

end Generator

end IntentGrammar
