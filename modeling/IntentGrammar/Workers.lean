import IntentGrammar.Run

/-!
# Runs on workers

On workers every intent is a job of its own.  Jobs run side by side, and a job that fails does not
stop the others.  Their batches share one way to the sink, on which the batches of a job keep their
order and nothing else is said about the order; so a run takes the arrangement of the batches as an
argument.  A sink that refuses a batch cancels the run.  Workers and the room on the way are shared
out as places, of which there can be only so many; more of them stop the program.
-/

namespace IntentGrammar

/-! ### Jobs -/

/-- An intent that was generated by itself: the batches it handed over, and what became of it. -/
structure Job where
  intent : String
  batches : List Batch
  outcome : Except Error IntentSummary

/-- The sink that keeps every batch. -/
def Batch.collector : Sink (Array Batch) where
  accept b batches := (.accepted, batches.push b)

/-- Generate an intent by itself. -/
def Generator.job (gen : Generator) (plan : Plan gen.graph) : StateM Cancellation Job := do
  let (outcome, r) := (gen.generateIntent plan Batch.collector).run.run ⟨#[], ← get⟩
  set r.cancellation
  return ⟨plan.name, r.sink.toList, outcome⟩

/-! ### Reports -/

/-- A job that failed. -/
structure JobFailure where
  intent : String
  reason : String
  deriving DecidableEq, Repr

/-- What a run on workers reports: the intents that were finished, and the jobs that failed. -/
structure Report where
  summary : RunSummary
  failures : List JobFailure := []
  deriving DecidableEq, Repr

namespace Report

/-- Every intent was finished, and nothing was cancelled. -/
def isComplete (r : Report) : Bool := r.failures.isEmpty && !r.summary.cancelled

/-- The report on jobs, in their order. -/
def ofJobs (seed : UInt64) (jobs : List Job) : Report :=
  let intents := jobs.filterMap (·.outcome.toOption)
  let failure? (job : Job) : Option JobFailure :=
    match job.outcome with
    | .ok _ => none
    | .error e => some ⟨job.intent, e.message⟩
  { summary := { seed, intents, cancelled := intents.any (·.cancelled) }
    failures := jobs.filterMap failure? }

end Report

/-! ### Runs -/

/-- The most places that can be shared out. -/
def maxPlaces : Nat := 0x1FFFFFFFFFFFFFFF

/-- Set up the workers, and then the way to the sink. -/
def WorkerSettings.setUp (w : WorkerSettings) : Except Panic Unit := do
  let _ ← checked maxPlaces .places w.workers
  let _ ← checked maxPlaces .places w.channelCapacity

/-- Why a run on workers yields no report. -/
inductive RunFault where
  | unusable (e : Error)
  /-- The sink refused a batch. -/
  | refused (reason : String)
  /-- The sink could not be closed. -/
  | unclosed (reason : String)

/-- The wording of a run fault. -/
def RunFault.message : RunFault → String
  | unusable e => e.message
  | refused reason => s!"Output sink rejected a batch: {reason}"
  | unclosed reason => s!"Failed to close output sink: {reason}"

/-- A computation on a sink with the faults of a run. -/
abbrev Working (τ : Type) := ExceptT RunFault (StateM (Receiving τ))

/-- A result that is needed to start. -/
def Working.require {α τ : Type} : Except Error α → Working τ α
  | .ok a => return a
  | .error e => throw (.unusable e)

namespace Sink

variable {τ : Type} (sink : Sink τ)

/-- Hand over batches in order; a refusal ends this and cancels the run. -/
def receive (batches : List Batch) : Working τ Unit := do
  match (batches.forM sink.deliver).run.run (← get) with
  | (.ok (), r) => set r
  | (.error e, r) =>
    set { r with cancellation := .now }
    throw (.refused e.message)

/-- Tell the sink that no more batches come. -/
def finish : Working τ Unit := do
  let r ← get
  let (fault, s) := sink.close r.sink
  set { r with sink := s }
  fault.forM fun reason => throw (.unclosed reason)

end Sink

namespace Generator

variable (gen : Generator) {τ : Type}

/-- Run the jobs of plans. -/
def runJobs (plans : List (Plan gen.graph)) : Working τ (List Job) := do
  let r ← get
  let (jobs, c) := (plans.mapM gen.job).run r.cancellation
  set { r with cancellation := c }
  return jobs

/-- Generate every intent on workers.  `arrange` says in which order the batches of the jobs reach
the sink. -/
def runOnWorkers (workers : WorkerSettings) (request : Request) (sink : Sink τ)
    (arrange : List (List Batch) → List Batch := List.flatten) : Working τ Report := do
  workers.fault?.forM fun fault => throw (.unusable (.settingsInvalid fault))
  let plans ← Working.require (gen.plans request)
  Working.require (workers.setUp.mapError .panic)
  let jobs ← gen.runJobs plans
  sink.receive (arrange (jobs.map (·.batches)))
  sink.finish
  return Report.ofJobs gen.seed jobs

end Generator

end IntentGrammar
