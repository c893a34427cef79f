import IntentGrammar.Command.Basic

/-!
# The command that checks a grammar

Nothing is generated.  The command tells how many utterances each intent has and how they would be
made.
-/

namespace IntentGrammar

/-- The line about a plan. -/
def Generator.planLine (gen : Generator) (plan : Plan gen.graph) : String :=
  match plan.strategy with
  | .exhaustive paths => s!"✓ {plan.name}: {paths} distinct utterances, exhaustive"
  | .sampled draws =>
    s!"✓ {plan.name}: {(gen.graph.count plan.intent).text} distinct utterances, sampling {draws}"

namespace Command

/-- Check the grammar at a path. -/
def validate (path : String) (settingsPath : Option String) : Command Unit := do
  let directory ← locate path
  let p ← settings settingsPath directory
  tell s!"Validating grammar: {path}"
  let graph ← graph path p.settings
  tell s!"✓ Definitions: {graph.size}"
  tell s!"✓ Content hash: {graph.contentHash}"
  let gen : Generator := ⟨graph, p.settings, p.settings.seed.getD 0⟩
  tellAll ((← require .refused (gen.plans p.settings.request)).map gen.planLine)
  tell "✓ Grammar is valid"

end Command

end IntentGrammar
