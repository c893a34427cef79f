/-!
# Checked numbers

The numbers of a program have a largest value.  An operation whose exact result is larger yields no
smaller one in its place, and no error that could be handled: the program stops there.
-/

namespace IntentGrammar

/-- Why the program stops. -/
inductive Panic where
  /-- A sum is too large. -/
  | addition
  /-- A product is too large. -/
  | multiplication
  /-- There are more places to share out than there can be. -/
  | places
  deriving DecidableEq, Repr

/-- The wording of a stop. -/
def Panic.message : Panic → String
  | addition => "attempt to add with overflow"
  | multiplication => "attempt to multiply with overflow"
  | places => "a semaphore may not have more than MAX_PERMITS permits (2305843009213693951)"

/-- The exact result of an operation, if it is not larger than the largest number. -/
def checked (largest : Nat) (p : Panic) (n : Nat) : Except Panic Nat :=
  if n ≤ largest then .ok n else .error p

section

variable {α : Type} {largest n : Nat}

theorem checked_of_le (h : n ≤ largest) (p : Panic) : checked largest p n = .ok n := if_pos h

theorem checked_of_lt (h : largest < n) (p : Panic) : checked largest p n = .error p :=
  if_neg (Nat.not_le.mpr h)

/-- A result that fits is worked on. -/
theorem checked_bind_of_le (h : n ≤ largest) (p : Panic) (f : Nat → Except Panic α) :
    (checked largest p n >>= f) = f n := by
  rw [checked_of_le h]
  rfl

theorem checked_bind_of_lt (h : largest < n) (p : Panic) (f : Nat → Except Panic α) :
    (checked largest p n >>= f) = .error p := by
  rw [checked_of_lt h]
  rfl

end

end IntentGrammar
