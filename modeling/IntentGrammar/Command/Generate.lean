import IntentGrammar.Command.Basic
import IntentGrammar.Record.Summary

/-!
# The command that generates utterances

The utterances of a grammar go to files in a directory: the one that is named, or else the one in
the settings, or else one with the name of the grammar.  Beside them stands a manifest that says
what was made.
-/

namespace IntentGrammar

/-- What may be said when utterances are generated. -/
structure GenerateOptions where
  settingsPath : Option String := none
  outputDir : Option String := none
  samples : Option Nat := none
  testFraction : Option Float := none
  seed : Option UInt64 := none
  workers : Option Nat := none
  /-- A time limit in seconds. -/
  timeout : Option Nat := none

namespace GenerateOptions

/-- The options come before the settings of the project. -/
def override (o : GenerateOptions) (p : Project) : Project :=
  { p with
    settings := { p.settings with
      samples := o.samples.or p.settings.samples
      testFraction := o.testFraction.or p.settings.testFraction
      seed := o.seed.or p.settings.seed }
    workers := { p.workers with workers := o.workers.getD p.workers.workers } }

/-- The directory for the utterances. -/
def outputPath (o : GenerateOptions) (p : Project) (path directory : String) : String :=
  match o.outputDir, p.outputDir with
  | some named, _ => named
  | none, some configured => Path.join directory configured
  | none, none => Path.join directory ((Path.stem? path).getD "output")

/-- The cancellation for the time limit. -/
def cancellation (o : GenerateOptions) : Cancellation :=
  match o.timeout with
  | some seconds => .ofTimeout seconds
  | none => .never

end GenerateOptions

/-- The record of a job that failed. -/
def JobFailure.toJson (f : JobFailure) : Json :=
  .object [("intent", .string f.intent), ("error", .string f.reason)]

/-- The manifest for a grammar: what it was made from and what was made. -/
def Report.manifest (r : Report) (path contentHash : String) : Json :=
  .object [("grammar", .string path), ("content_hash", .string contentHash),
    ("seed", .nat r.summary.seed.toNat), ("cancelled", .bool r.summary.cancelled),
    ("intents", Json.ofList IntentSummary.toJson r.summary.intents),
    ("warnings", Json.ofList Shortfall.toJson r.summary.warnings),
    ("failures", Json.ofList JobFailure.toJson r.failures)]

namespace Command

/-- Generate into files.  Their contents are settled also if the run fails. -/
def generateInto (output : String) (gen : Generator) (p : Project) (c : Cancellation)
    (arrange : List (List Batch) → List Batch := List.flatten) :
    Command (Report × LineFiles) := do
  let written : Written := ⟨{ directory := output }, ← files⟩
  let (result, r) :=
    (gen.runOnWorkers p.workers p.settings.request Written.sink arrange).run.run ⟨written, c⟩
  setFiles r.sink.settled
  return (← require .run result, r.sink.output)

/-- Generate the utterances of the grammar at a path.  `drawnSeed` is the seed if none is given, and
`arrange` says in which order the batches of the jobs reach the files. -/
def generate (path : String) (o : GenerateOptions) (drawnSeed : UInt64)
    (arrange : List (List Batch) → List Batch := List.flatten) : Command Unit := do
  let directory ← locate path
  let p := o.override (← settings o.settingsPath directory)
  let graph ← graph path p.settings
  let output := o.outputPath p path directory
  tell s!"Generating {path} into {output}"
  let gen : Generator := ⟨graph, p.settings, p.settings.seed.getD drawnSeed⟩
  let (report, lineFiles) ← generateInto output gen p o.cancellation arrange
  tellAll (report.summary.intents.map fun s =>
    s!"✓ {s.intent}: {s.training} training, {s.testing} testing")
  filing (fun fault => .notCreated ⟨output, fault⟩) (Files.makeDirectories output)
  let manifest := Path.join output "manifest.json"
  filing (.notWritten manifest)
    (Files.save manifest (report.manifest path graph.contentHash).indented)
  if !report.failures.isEmpty then throw (.failedJobs report.failures.length)
  let _ ← require .refused report.summary.ensureComplete
  tell s!"✓ Wrote {lineFiles.lines} utterances to {output}"

end Command

end IntentGrammar
