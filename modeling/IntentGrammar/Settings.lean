import IntentGrammar.Decimal.Shortest

/-!
# Settings

What a user may set about a generation run, with its defaults, and the values that are refused.
-/

namespace IntentGrammar

/-- How many utterances to make for an intent. -/
inductive Amount where
  /-- Every one there is, up to the ceiling. -/
  | all
  /-- This many different ones. -/
  | samples (n : Nat)
  deriving DecidableEq, Repr

/-- What a run is asked for: an amount for every intent, and the fraction kept for testing. -/
structure Request where
  amount : Amount := .all
  testFraction : Option Float := none

/-- What shapes the generation of utterances. -/
structure Settings where
  /-- The largest number of expansions that are enumerated; more are sampled. -/
  exhaustiveCeiling : Nat := 10000
  /-- The probability that a sampled sentence keeps a part that may be left out. -/
  optionalProbability : Float := 0.5
  /-- The draws allowed for each utterance asked for. -/
  attemptsPerExample : Nat := 20
  /-- The nesting depth from which on optional references are left out. -/
  maxDepth : Nat := 32
  /-- The utterances in one delivery. -/
  batchSize : Nat := 1
  seed : Option UInt64 := none
  testFraction : Option Float := none
  samples : Option Nat := none

/-- What shapes a run on several workers. -/
structure WorkerSettings where
  workers : Nat := 4
  channelCapacity : Nat := 64

/-- A setting with a value that is refused. -/
inductive BadSetting where
  | notProbability (name : String) (value : Float)
  | zero (name : String)

/-- The wording of a refusal. -/
def BadSetting.message : BadSetting → String
  | notProbability name value => s!"{name} must be between 0 and 1, got {Decimal.text value}"
  | zero name => s!"{name} must be at least 1"

/-- A number between zero and one, both included. -/
def isProbability (x : Float) : Bool := 0.0 ≤ x && x ≤ 1.0

/-- The first setting that is refused. -/
def Settings.fault? (s : Settings) : Option BadSetting :=
  if !isProbability s.optionalProbability then
    some (.notProbability "optional_probability" s.optionalProbability)
  else
    match s.testFraction.filter (!isProbability ·) with
    | some fraction => some (.notProbability "test_fraction" fraction)
    | none =>
      if s.exhaustiveCeiling = 0 then some (.zero "exhaustive_ceiling")
      else if s.attemptsPerExample = 0 then some (.zero "attempts_per_example")
      else if s.batchSize = 0 then some (.zero "batch_size")
      else none

/-- The first worker setting that is refused. -/
def WorkerSettings.fault? (s : WorkerSettings) : Option BadSetting :=
  if s.workers = 0 then some (.zero "workers")
  else if s.channelCapacity = 0 then some (.zero "channel_capacity")
  else none

/-- The request that the settings describe. -/
def Settings.request (s : Settings) : Request :=
  { amount := match s.samples with
      | some n => .samples n
      | none => .all
    testFraction := s.testFraction }

end IntentGrammar
