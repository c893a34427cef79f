import IntentGrammar.Delivery
import IntentGrammar.Stream
import IntentGrammar.Summary

/-!
# Runs

A run generates one intent after the other in the order of their declaration and stops after the
first one that was cancelled.  What an intent has yielded is delivered also when it is cancelled.
-/

namespace IntentGrammar

namespace Generator

variable (gen : Generator) {τ : Type}

/-- Deliver the next `n` utterances of a stream, or as many as there are.  The result is the stream
and the emitter afterwards and the numbers of utterances for training and testing. -/
def pump (plan : Plan gen.graph) (sink : Sink τ) :
    Nat → Stream → Emitter → Nat × Nat → Delivering τ (Stream × Emitter × Nat × Nat)
  | 0, s, e, counts => return (s, e, counts)
  | n + 1, s, e, (training, testing) => do
    let r ← get
    let (found, s, c) := s.next (gen.pull? plan.intent) r.cancellation
    set { r with cancellation := c }
    match found with
    | none => return (s, e, training, testing)
    | some (part, u) =>
      let counts := match part with
        | .training => (training + 1, testing)
        | .testing => (training, testing + 1)
      let (batch, e) := e.push part u
      batch.forM sink.deliver
      pump plan sink n s e counts

/-- Generate one intent. -/
def generateIntent (plan : Plan gen.graph) (sink : Sink τ) : Delivering τ IntentSummary := do
  let r ← get
  let (s, c) := gen.stream plan r.cancellation
  set { r with cancellation := c }
  let emitter : Emitter :=
    { intent := plan.name, batchSize := gen.settings.batchSize, incremental := sink.incremental }
  let (s, emitter, training, testing) ←
    gen.pump plan sink (s.target - s.produced) s emitter (0, 0)
  emitter.finish.forM sink.deliver
  let produced := training + testing
  let warnings := match plan.requested with
    | some requested =>
      if !s.cancelled && produced < requested then [⟨plan.name, requested, produced⟩] else []
    | none => []
  return { intent := plan.name, strategy := plan.strategy, training, testing, warnings,
           cancelled := s.cancelled }

/-- Generate the intents of the plans up to the first that is cancelled. -/
def runPlans (sink : Sink τ) : List (Plan gen.graph) → Delivering τ (List IntentSummary)
  | [] => return []
  | plan :: plans => do
    let summary ← gen.generateIntent plan sink
    if summary.cancelled then return [summary]
    else return summary :: (← runPlans sink plans)

/-- Generate every intent. -/
def run (request : Request) (sink : Sink τ) : Delivering τ RunSummary := do
  let plans ← (gen.plans request : Except Error _)
  let intents ← gen.runPlans sink plans
  return { seed := gen.seed, intents, cancelled := intents.any (·.cancelled) }

end Generator

end IntentGrammar
