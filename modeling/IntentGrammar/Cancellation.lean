/-!
# Cancellation

A run asks before every utterance whether it has been cancelled.  A request to cancel, or a
deadline, may come at any moment, which for the run is between two questions.  So a cancellation is
the number of questions that it still answers with no; once it has answered yes it always does.
-/

namespace IntentGrammar

/-- What is left of a run before it is cancelled. -/
inductive Cancellation where
  /-- It is not cancelled. -/
  | never
  /-- So many questions are still answered with no. -/
  | after (checks : Nat)
  deriving DecidableEq, Repr

namespace Cancellation

/-- Cancelled now. -/
def now : Cancellation := after 0

/-- The answer that the next question gets. -/
def tripped : Cancellation → Bool
  | after 0 => true
  | _ => false

/-- Ask once. -/
def check : Cancellation → Bool × Cancellation
  | never => (false, never)
  | after 0 => (true, after 0)
  | after (k + 1) => (false, after k)

/-- The cancellation with a time limit in seconds.  A limit of zero is over at once; no other limit
is reached. -/
def ofTimeout (seconds : Nat) : Cancellation := if seconds = 0 then now else never

end Cancellation

/-- Cancellations held by handles, several of which may share one. -/
structure Handles where
  shared : Array Cancellation := #[]
  owners : Array Nat := #[]

namespace Handles

/-- A new handle with a cancellation of its own. -/
def add (h : Handles) (c : Cancellation) : Handles :=
  { shared := h.shared.push c, owners := h.owners.push h.shared.size }

/-- A new handle that shares the cancellation of a handle. -/
def share (h : Handles) (handle : Nat) : Handles :=
  { h with owners := h.owners.push (h.owners.getD handle 0) }

/-- Cancel through a handle. -/
def cancel (h : Handles) (handle : Nat) : Handles :=
  { h with shared := h.shared.setIfInBounds (h.owners.getD handle 0) .now }

/-- The answers that the handles get. -/
def tripped (h : Handles) : List Bool :=
  h.owners.toList.map fun owner => (h.shared.getD owner .never).tripped

end Handles

end IntentGrammar
