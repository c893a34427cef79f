import IntentGrammar.Proofs.Streams

/-!
# Streams that are cancelled

A cancellation that comes after a number of questions cuts a computation short or does not touch it.
If it does not, the computation comes to the same as without; if it does, it is over, and stays over
for all that follows.  `Interrupts` says so of searches and `interrupts_take` of runs, which yield a
first part of what they would have yielded.

So utterances that are counted in advance are either all counted, or none are yielded afterwards:
there is no moment at which a stream could be cancelled and still yield something with a split for a
number of utterances that is too small.
-/

namespace IntentGrammar

variable {pull? : Position → Option (Utterance × Position)} {s : Stream}

/-! ### One search -/

/-- A computation that may be cancelled has come to `r`, and would have come to `r'` if it had not
been: to the same, or it is over and has found nothing. -/
def Interrupts (r r' : Option Labelled × Stream × Cancellation) : Prop :=
  (∃ checks, r = (r'.1, r'.2.1, .after checks)) ∨ r.1 = none ∧ r.2.2 = .now

theorem interrupts_seek (left : Nat) (position : Position) (checks : Nat) :
    Interrupts (s.seek pull? left position (.after checks)) (s.seek pull? left position .never) := by
  induction left generalizing position checks with
  | zero =>
    rcases checks with _ | checks
    · exact .inr ⟨rfl, rfl⟩
    · exact .inl ⟨checks, rfl⟩
  | succ left ih =>
    rcases checks with _ | checks
    · exact .inr ⟨rfl, rfl⟩
    · rw [Stream.seek, Stream.seek]
      simp only [Cancellation.check]
      rcases pull? position with _ | ⟨u, position'⟩
      · exact .inl ⟨checks, rfl⟩
      · simp only
        split
        · exact ih position' checks
        · exact .inl ⟨checks, rfl⟩

theorem interrupts_next (pull? : Position → Option (Utterance × Position)) (s : Stream)
    (checks : Nat) :
    Interrupts (s.next pull? (.after checks)) (s.next pull? .never) := by
  rw [Stream.next, Stream.next]
  split
  · exact .inl ⟨checks, rfl⟩
  · exact interrupts_seek s.left s.position checks

/-- Without cancellation there is none afterwards. -/
theorem seek_never (left : Nat) (position : Position) :
    (s.seek pull? left position .never).2.2 = .never := by
  induction left generalizing position with
  | zero => rfl
  | succ left ih =>
    rw [Stream.seek]
    simp only [Cancellation.check]
    rcases pull? position with _ | ⟨u, position'⟩
    · rfl
    · simp only
      split
      · exact ih position'
      · rfl

theorem next_never (pull? : Position → Option (Utterance × Position)) (s : Stream) :
    (s.next pull? .never).2.2 = .never := by
  rw [Stream.next]
  split
  · rfl
  · exact seek_never s.left s.position

/-! ### Whole runs -/

/-- **A run that may be cancelled** comes to the same as without cancellation, or it has yielded a
first part of it and the cancellation is over. -/
theorem interrupts_take (n checks : Nat) :
    (∃ checks', s.take pull? n (.after checks)
        = ((s.take pull? n .never).1, (s.take pull? n .never).2.1, .after checks')) ∨
      (s.take pull? n (.after checks)).1 <+: (s.take pull? n .never).1 ∧
        (s.take pull? n (.after checks)).2.2 = .now := by
  induction n generalizing s checks with
  | zero => exact .inl ⟨checks, rfl⟩
  | succ n ih =>
    have hnever := next_never pull? s
    rcases hnext : s.next pull? .never with ⟨found, s', c⟩
    obtain rfl : c = .never := by rwa [hnext] at hnever
    have hstep := interrupts_next pull? s checks
    rw [hnext] at hstep
    rcases hstep with ⟨checks', hsame⟩ | ⟨hnone, hnow⟩
    · -- the search comes to the same, and then so does the rest or a first part of it
      rw [Stream.take, Stream.take, hnext, hsame]
      rcases found with _ | x
      · exact .inl ⟨checks', rfl⟩
      · rcases ih (s := s') checks' with ⟨checks'', htake⟩ | ⟨hfirst, hnow⟩
        · exact .inl ⟨checks'', by simp only [htake]⟩
        · exact .inr ⟨List.cons_prefix_cons.mpr ⟨rfl, hfirst⟩, hnow⟩
    · rcases hcut : s.next pull? (.after checks) with ⟨found', s'', c⟩
      rw [hcut] at hnone hnow
      obtain rfl : found' = none := hnone
      rw [Stream.take, hcut]
      exact .inr ⟨List.nil_prefix, hnow⟩

/-- Once the cancellation is over, nothing is yielded. -/
theorem take_now (n : Nat) : (s.take pull? n .now).1 = [] := by
  rcases n with _ | n
  · rfl
  · have hnone : (s.next pull? .now).1 = none := by
      rw [Stream.next]
      split
      · rfl
      · rw [Stream.seek]
        rfl
    rw [Stream.take]
    rcases hnext : s.next pull? .now with ⟨found, s', c⟩
    rw [hnext] at hnone
    obtain rfl : found = none := hnone
    rfl

/-! ### Plans -/

variable (gen : Generator) (plan : Plan gen.graph)

theorem interrupts_rest (s : Stream) (checks : Nat) :
    (∃ checks', gen.rest plan s (.after checks)
        = ((gen.rest plan s .never).1, (gen.rest plan s .never).2.1, .after checks')) ∨
      (gen.rest plan s (.after checks)).1 <+: (gen.rest plan s .never).1 ∧
        (gen.rest plan s (.after checks)).2.2 = .now :=
  interrupts_take _ checks

/-- The split is the one without cancellation, or the cancellation is over. -/
theorem interrupts_fitSplit (checks : Nat) :
    (∃ checks', gen.fitSplit plan (.after checks)
        = ((gen.fitSplit plan .never).1, .after checks')) ∨
      (gen.fitSplit plan (.after checks)).2 = .now := by
  rw [Generator.fitSplit, Generator.fitSplit]
  split
  · rcases interrupts_rest gen plan (gen.start plan (.none plan.target)) checks with
      ⟨checks', hsame⟩ | ⟨-, hnow⟩
    · exact .inl ⟨checks', by simp only [hsame]⟩
    · exact .inr hnow
  · exact .inl ⟨checks, rfl⟩

/-- **A plan that is cancelled** at any moment, while utterances are counted in advance or while
they are yielded, yields a first part of what it yields without; and if it yields anything, the
split is the one without cancellation. -/
theorem outcome_after_isPrefix (checks : Nat) :
    (gen.outcome plan (.after checks)).1 <+: (gen.outcome plan .never).1 ∧
      ((gen.outcome plan (.after checks)).1 ≠ [] →
        (gen.fitSplit plan (.after checks)).1 = (gen.fitSplit plan .never).1) := by
  rw [Generator.outcome_never, Generator.outcome, Generator.stream]
  rcases interrupts_fitSplit gen plan checks with ⟨checks', hfit⟩ | hnow
  · -- the split is known, and only the stream itself may be cut short
    rw [hfit]
    refine ⟨?_, fun _ => rfl⟩
    rcases interrupts_rest gen plan (gen.start plan (gen.fitSplit plan .never).1) checks' with
      ⟨checks'', hrest⟩ | ⟨hfirst, -⟩
    · rw [hrest]
    · exact hfirst
  · -- the count in advance was cut short, and so nothing is yielded
    have hnothing : (gen.rest plan (gen.start plan (gen.fitSplit plan (.after checks)).1) .now).1
        = [] := take_now _
    rw [hnow, hnothing]
    exact ⟨List.nil_prefix, fun hne => absurd rfl hne⟩

end IntentGrammar
