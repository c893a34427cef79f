import IntentGrammar.Cancellation
import IntentGrammar.Error
import IntentGrammar.Split
import IntentGrammar.Utterance

/-!
# Delivering utterances in batches

Utterances reach their receiver, a *sink*, in batches of one intent and one part.  An emitter
collects the utterances of an intent and hands over a batch when it is full and, at the end,
whatever is left, training first.  To a sink that wants everything at once it hands over nothing
before the end.
-/

namespace IntentGrammar

/-- Utterances of one intent and one part, in the order of their generation. -/
structure Batch where
  intent : String
  index : Nat
  part : Part
  utterances : List Utterance
  deriving DecidableEq, Repr

/-! ### Sinks -/

/-- What a sink says to a batch. -/
inductive Reply where
  | accepted
  /-- The batch is accepted and the run is to be cancelled. -/
  | acceptedLast
  | refused (reason : String)
  deriving DecidableEq, Repr

/-- A receiver of batches with a state. -/
structure Sink (τ : Type) where
  /-- Batches may come while the intent is still being generated. -/
  incremental : Bool := true
  accept : Batch → τ → Reply × τ
  /-- Called after the last batch of a run on workers; a reason if it fails. -/
  close : τ → Option String × τ := fun s => (none, s)

/-- The state of a sink and the cancellation that it can trip. -/
structure Receiving (τ : Type) where
  sink : τ
  cancellation : Cancellation

/-- A computation that delivers batches. -/
abbrev Delivering (τ : Type) := ExceptT Error (StateM (Receiving τ))

/-- Hand a batch to a sink. -/
def Sink.deliver {τ : Type} (sink : Sink τ) (batch : Batch) : Delivering τ Unit := do
  let r ← get
  match sink.accept batch r.sink with
  | (.accepted, s) => set { r with sink := s }
  | (.acceptedLast, s) => set { r with sink := s, cancellation := .now }
  | (.refused reason, s) =>
    set { r with sink := s }
    throw (.sink reason)

/-! ### Emitters -/

/-- The utterances of an intent that have not been handed over. -/
structure Emitter where
  intent : String
  batchSize : Nat
  incremental : Bool
  training : Array Utterance := #[]
  testing : Array Utterance := #[]
  nextIndex : Nat := 0

namespace Emitter

/-- The utterances of a part that have not been handed over. -/
def waiting (e : Emitter) : Part → Array Utterance
  | .training => e.training
  | .testing => e.testing

/-- Replace the waiting utterances of a part. -/
def setWaiting (e : Emitter) (part : Part) (us : Array Utterance) : Emitter :=
  match part with
  | .training => { e with training := us }
  | .testing => { e with testing := us }

/-- Take the waiting utterances of a part as a batch, if there are any. -/
def flush (e : Emitter) (part : Part) : Option Batch × Emitter :=
  let us := e.waiting part
  if us.isEmpty then (none, e)
  else
    (some ⟨e.intent, e.nextIndex, part, us.toList⟩,
      { e.setWaiting part #[] with nextIndex := e.nextIndex + 1 })

/-- Take up an utterance; a batch results if it is full and may be handed over.  A batch size of
zero acts as one. -/
def push (e : Emitter) (part : Part) (u : Utterance) : Option Batch × Emitter :=
  let e := e.setWaiting part ((e.waiting part).push u)
  if e.incremental && max e.batchSize 1 ≤ (e.waiting part).size then e.flush part
  else (none, e)

/-- Take all that is waiting, training first. -/
def finish (e : Emitter) : List Batch :=
  let (first, e) := e.flush .training
  let (second, _) := e.flush .testing
  first.toList ++ second.toList

end Emitter

end IntentGrammar
