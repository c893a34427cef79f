import IntentGrammar.Record.Basic
import IntentGrammar.Summary

/-!
# Summaries in JSON

What became of a run, as a record that can be kept and read again.
-/

namespace IntentGrammar

/-- The record of a strategy. -/
def Strategy.toJson : Strategy → Json
  | exhaustive paths => .object [("mode", .string "exhaustive"), ("paths", .nat paths)]
  | sampled draws => .object [("mode", .string "sampled"), ("draws", .nat draws)]

/-- Read the record of a strategy. -/
def Strategy.ofJson? (j : Json) : Option Strategy := do
  let (mode, body) ← j.tagged? "mode"
  if mode = "exhaustive" then
    match ← body.fields? ["paths"] with
    | [paths] => return exhaustive (← paths.count?)
    | _ => none
  else if mode = "sampled" then
    match ← body.fields? ["draws"] with
    | [draws] => return sampled (← draws.count?)
    | _ => none
  else none

/-- The record of a shortfall. -/
def Shortfall.toJson (w : Shortfall) : Json :=
  .object [("kind", .string "insufficient_unique_examples"), ("intent", .string w.intent),
    ("requested", .nat w.requested), ("produced", .nat w.produced)]

/-- Read the record of a shortfall. -/
def Shortfall.ofJson? (j : Json) : Option Shortfall := do
  let (kind, body) ← j.tagged? "kind"
  guard (kind = "insufficient_unique_examples")
  match ← body.fields? ["intent", "requested", "produced"] with
  | [intent, requested, produced] =>
    return ⟨← intent.string?, ← requested.count?, ← produced.count?⟩
  | _ => none

/-- The record of what became of an intent. -/
def IntentSummary.toJson (s : IntentSummary) : Json :=
  .object [("intent", .string s.intent), ("strategy", s.strategy.toJson),
    ("training", .nat s.training), ("testing", .nat s.testing),
    ("warnings", Json.ofList Shortfall.toJson s.warnings), ("cancelled", .bool s.cancelled)]

/-- Read the record of what became of an intent. -/
def IntentSummary.ofJson? (j : Json) : Option IntentSummary := do
  match ← j.fields? ["intent", "strategy", "training", "testing", "warnings", "cancelled"] with
  | [intent, strategy, training, testing, warnings, cancelled] =>
    return ⟨← intent.string?, ← Strategy.ofJson? strategy, ← training.count?, ← testing.count?,
      ← warnings.listOf? Shortfall.ofJson?, ← cancelled.bool?⟩
  | _ => none

/-- Read the record of what became of a run. -/
def RunSummary.ofJson? (j : Json) : Option RunSummary := do
  match ← j.fields? ["seed", "intents", "cancelled"] with
  | [seed, intents, cancelled] =>
    return ⟨(← seed.count?).toUInt64, ← intents.listOf? IntentSummary.ofJson?, ← cancelled.bool?⟩
  | _ => none

end IntentGrammar
