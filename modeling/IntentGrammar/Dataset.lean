import IntentGrammar.Delivery

/-!
# Data sets

A data set holds the utterances of several intents in memory, for each intent those for training
and those for testing.  The intents are ordered by name.
-/

namespace IntentGrammar

/-- The utterances of one intent. -/
structure IntentData where
  training : List Utterance := []
  testing : List Utterance := []
  deriving DecidableEq, Repr

/-- The number of utterances. -/
def IntentData.size (d : IntentData) : Nat := d.training.length + d.testing.length

/-- Add utterances to a part. -/
def IntentData.append (d : IntentData) (part : Part) (us : List Utterance) : IntentData :=
  match part with
  | .training => { d with training := d.training ++ us }
  | .testing => { d with testing := d.testing ++ us }

/-- The utterances of several intents, ordered by the names of the intents. -/
structure Dataset where
  intents : List (String × IntentData) := []
  deriving DecidableEq, Repr

namespace Dataset

/-- Change the data of an intent, which starts empty. -/
def update (name : String) (f : IntentData → IntentData) :
    List (String × IntentData) → List (String × IntentData)
  | [] => [(name, f {})]
  | (other, d) :: rest =>
    if name = other then (other, f d) :: rest
    else if name < other then (name, f {}) :: (other, d) :: rest
    else (other, d) :: update name f rest

/-- Take in a batch. -/
def accept (d : Dataset) (b : Batch) : Dataset :=
  ⟨update b.intent (·.append b.part b.utterances) d.intents⟩

/-- The data of an intent. -/
def intent? (d : Dataset) (name : String) : Option IntentData := d.intents.lookup name

/-- The number of utterances. -/
def size (d : Dataset) : Nat := d.intents.foldr (fun d total => d.2.size + total) 0

/-- The sink that fills a data set. -/
def sink : Sink Dataset where
  accept b d := (.accepted, d.accept b)

end Dataset

end IntentGrammar
