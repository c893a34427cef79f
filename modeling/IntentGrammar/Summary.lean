import IntentGrammar.Error
import IntentGrammar.Plan

/-!
# Summaries

What became of each intent of a run, and of the run.
-/

namespace IntentGrammar

/-- Fewer different utterances than were asked for. -/
structure Shortfall where
  intent : String
  requested : Nat
  produced : Nat
  deriving DecidableEq, Repr

/-- The wording of the warning for a shortfall. -/
def Shortfall.message (w : Shortfall) : String :=
  s!"intent '{w.intent}': requested {w.requested} unique examples but only {w.produced} " ++
    "could be generated"

/-- What became of an intent. -/
structure IntentSummary where
  intent : String
  strategy : Strategy
  training : Nat
  testing : Nat
  warnings : List Shortfall
  cancelled : Bool
  deriving DecidableEq, Repr

/-- The utterances for training and testing. -/
def IntentSummary.total (s : IntentSummary) : Nat := s.training + s.testing

/-- What became of a run; the intents are in the order of their declaration. -/
structure RunSummary where
  seed : UInt64
  intents : List IntentSummary := []
  cancelled : Bool := false
  deriving DecidableEq, Repr

namespace RunSummary

/-- The utterances for training. -/
def trainingTotal (s : RunSummary) : Nat := s.intents.foldr (·.training + ·) 0

/-- The utterances for testing. -/
def testingTotal (s : RunSummary) : Nat := s.intents.foldr (·.testing + ·) 0

/-- The warnings of all intents. -/
def warnings (s : RunSummary) : List Shortfall := s.intents.flatMap (·.warnings)

/-- An error if the run was cancelled. -/
def ensureComplete (s : RunSummary) : Except Error RunSummary :=
  if s.cancelled then .error (.cancelled (s.trainingTotal + s.testingTotal)) else .ok s

end RunSummary

end IntentGrammar
