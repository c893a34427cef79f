import IntentGrammar.Error
import IntentGrammar.Grammar.Arguments
import IntentGrammar.Yaml.Field

/-!
# Settings of a project

A project is a grammar with settings beside it, in a mapping with the sections `generation` and
`runtime` and the name of an output directory.  Everything has a default.
-/

namespace IntentGrammar

open Text
open Yaml.Node (count? float? optional? text?)

/-- The settings of a project. -/
structure Project where
  settings : Settings := {}
  workers : WorkerSettings := {}
  outputDir : Option String := none

namespace Project

/-! ### Sections -/

/-- The section on generation. -/
def settings? (root n : Yaml.Node) : Option Settings := do
  let fields ← root.fields? n
  let base : Settings := {}
  return {
    exhaustiveCeiling := ← fields.get? "exhaustive_ceiling" base.exhaustiveCeiling count?
    optionalProbability := ←
      fields.get? "optional_probability" base.optionalProbability float?
    attemptsPerExample := ← fields.get? "attempts_per_example" base.attemptsPerExample count?
    maxDepth := ← fields.get? "max_depth" base.maxDepth count?
    batchSize := ← fields.get? "batch_size" base.batchSize count?
    seed := ← fields.get? "seed" base.seed
      (optional? fun n => n.count?.map Nat.toUInt64)
    testFraction := ← fields.get? "test_fraction" base.testFraction (optional? float?)
    samples := ← fields.get? "samples" base.samples (optional? count?) }

/-- The section on workers. -/
def workerSettings? (root n : Yaml.Node) : Option WorkerSettings := do
  let fields ← root.fields? n
  let base : WorkerSettings := {}
  return {
    workers := ← fields.get? "workers" base.workers count?
    channelCapacity := ← fields.get? "channel_capacity" base.channelCapacity count? }

/-- The settings in a document. -/
def ofNode? (root : Yaml.Node) : Option Project := do
  let fields ← root.fields? root
  let base : Project := {}
  return {
    settings := ← fields.get? "generation" base.settings (settings? root)
    workers := ← fields.get? "runtime" base.workers (workerSettings? root)
    outputDir := ← fields.get? "output_dir" base.outputDir (optional? text?) }

/-! ### Texts -/

/-- The first setting that is refused. -/
def fault? (p : Project) : Option BadSetting := p.settings.fault? <|> p.workers.fault?

/-- Read and check the settings of a project.  A blank text gives the defaults. -/
def read (text : String) : Except Error Project :=
  if (trim text.toList).isEmpty then .ok {}
  else
    match Yaml.read? text with
    | none => .error .settingsUnreadable
    | some root =>
      match ofNode? (root.getD Yaml.Node.empty) with
      | none => .error .settingsUnreadable
      | some p =>
        match p.fault? with
        | some fault => .error (.settingsInvalid fault)
        | none => .ok p

end Project

end IntentGrammar
