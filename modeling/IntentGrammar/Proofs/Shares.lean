import IntentGrammar.Proofs.Resizing
import IntentGrammar.Proofs.Streams

/-!
# How much is kept for testing

Of the first `n` utterances that a split is for, `n * test / total` rounded down are for testing
(`Split.count_assign`): one more utterance raises this number by one or not at all, and it is for
testing exactly if it does.

A plan is never expected to yield fewer utterances than it does (`length_rest_start_le`), so the
utterances counted in advance are all those that are yielded later, and the split fitted to their
number is one for exactly them.
-/

namespace IntentGrammar

/-! ### Splits -/

namespace Split

variable (s : Split)

/-- One more utterance, one more for testing or none. -/
theorem share_succ_le {n : Nat} (htotal : 0 < s.total) :
    (n + 1) * s.test / s.total ≤ n * s.test / s.total + 1 := by
  rw [← Nat.add_div_right _ htotal, Nat.succ_mul]
  exact Nat.div_le_div_right (Nat.add_le_add_left s.test_le_total _)

/-- **Of the first `n` utterances**, `n * test / total` rounded down are for testing. -/
theorem count_assign {n : Nat} (hn : n ≤ s.total) :
    ((List.range n).map s.assign).count .testing = n * s.test / s.total := by
  induction n with
  | zero => rw [Nat.zero_mul, Nat.zero_div]; rfl
  | succ n ih =>
    have htotal : 0 < s.total := Nat.zero_lt_of_lt hn
    have hstep := s.share_succ_le (n := n) htotal
    have hmono : n * s.test / s.total ≤ (n + 1) * s.test / s.total :=
      Nat.div_le_div_right (Nat.mul_le_mul_right _ (Nat.le_succ n))
    rw [List.range_succ, List.map_append, List.count_append, ih (Nat.le_of_succ_le hn),
      List.map_singleton, assign]
    by_cases htest : s.test = 0
    · rw [if_pos (.inl htest), htest]
      simp
    · rw [if_neg (by omega)]
      split
      · rw [List.count_singleton_self]
        omega
      · rw [List.count_singleton, if_neg (by decide)]
        omega

/-- A split that is fitted is one for exactly so many utterances, or keeps nothing for testing. -/
theorem total_fitted {unique : Nat} (h : unique ≤ s.total) :
    unique ≤ (s.fitted unique).total ∧
      ((s.fitted unique).total = unique ∨ (s.fitted unique).test = 0) := by
  rw [fitted]
  split
  · rcases Nat.eq_or_lt_of_le h with rfl | hlt
    · rw [s.rescale_of_le le_rfl]
      exact ⟨le_rfl, .inl rfl⟩
    · obtain ⟨htotal, -⟩ := s.rescale_of_lt hlt
      exact ⟨htotal.ge, .inl htotal⟩
  · next htest => exact ⟨h, .inr (Nat.eq_zero_of_not_pos htest)⟩

theorem test_fitted_total : (s.fitted s.total).test = s.test := by
  rw [fitted, s.rescale_of_le le_rfl, ite_self]

theorem test_fitted_of_lt {unique : Nat} (h : unique < s.total) (htest : 0 < s.test) :
    (s.fitted unique).test = (2 * s.test * unique + s.total) / (2 * s.total) := by
  rw [fitted, if_pos htest]
  exact (s.rescale_of_lt h).2

theorem test_fitted_of_test_eq_zero (htest : s.test = 0) (unique : Nat) :
    (s.fitted unique).test = 0 := by
  rw [fitted, if_neg (by omega), htest]

end Split

/-- The number of utterances for testing. -/
def testing (xs : List Labelled) : Nat := (xs.map (·.1)).count .testing

/-- Utterances that are labelled one after the other are counted as the split says. -/
theorem testing_take {xs : List Labelled} {s : Split}
    (hlabels : xs.map (·.1) = (List.range xs.length).map s.assign) {n : Nat} (hn : n ≤ xs.length)
    (htotal : xs.length ≤ s.total) : testing (xs.take n) = n * s.test / s.total := by
  rw [testing, List.map_take, hlabels, ← List.map_take, List.take_range, Nat.min_eq_left hn]
  exact s.count_assign (hn.trans htotal)

/-- A split for exactly the utterances there are, or one that keeps nothing, shows in every first
part of them. -/
theorem testing_take_eq {xs : List Labelled} {s : Split}
    (hlabels : xs.map (·.1) = (List.range xs.length).map s.assign) (htotal : xs.length ≤ s.total)
    (hfits : s.total = xs.length ∨ s.test = 0) :
    testing xs = s.test ∧ ∀ n ≤ xs.length, testing (xs.take n) = n * s.test / xs.length := by
  have htake : ∀ n ≤ xs.length, testing (xs.take n) = n * s.test / xs.length := by
    intro n hn
    rw [testing_take hlabels hn htotal]
    rcases hfits with hfits | htest
    · rw [hfits]
    · rw [htest, Nat.mul_zero, Nat.zero_div, Nat.zero_div]
  refine ⟨?_, htake⟩
  have hall := htake xs.length le_rfl
  rw [List.take_length] at hall
  rw [hall]
  rcases Nat.eq_zero_or_pos xs.length with hzero | hpos
  · -- of no utterances none is for testing
    have htest := s.test_le_total
    rw [hzero, Nat.div_zero]
    omega
  · exact Nat.mul_div_cancel_left _ hpos

/-! ### Plans -/

/-- A plan is split for the utterances that it is expected to yield. -/
theorem total_split_planAt (gen : Generator) (intent : Fin gen.graph.size) (name : String)
    (own : Option (Amount × Nat)) (request : Request) :
    (gen.planAt intent name own request).split.total
      = (gen.planAt intent name own request).strategy.expected
          (gen.planAt intent name own request).target := by
  simp only [Generator.planAt]
  rcases own with _ | ⟨amount, test⟩
  · rcases request.testFraction with _ | fraction
    · rfl
    · rfl
  · rfl

/-- What is drawn is drawn until the target is reached. -/
theorem target_of_chooseStrategy_eq_sampled {ceiling draws : Nat} {count : Cardinality}
    {amount : Amount} (h : (chooseStrategy ceiling count amount).1 = .sampled draws) :
    (chooseStrategy ceiling count amount).2.1 = draws := by
  cases amount with
  | all =>
    rw [chooseStrategy] at h ⊢
    split at h
    · cases h
    · exact Strategy.sampled.inj h
  | samples n =>
    rw [chooseStrategy] at h ⊢
    split at h
    · cases h
    · exact Strategy.sampled.inj h

theorem length_pulled_le (pull? : Position → Option (Utterance × Position)) (left : Nat)
    (position : Position) : (pulled pull? left position).length ≤ left := by
  induction left generalizing position with
  | zero => exact le_rfl
  | succ left ih =>
    rw [pulled]
    split
    · exact Nat.zero_le _
    · next position' _ => exact Nat.succ_le_succ (ih position')

/-- **No plan yields more than it is expected to.** -/
theorem length_rest_start_le {gen : Generator} {name : String} {request : Request}
    {plan : Plan gen.graph} (hplan : gen.plan name request = .ok plan) (split : Split) :
    (gen.rest plan (gen.start plan split) .never).1.length ≤ plan.split.total := by
  obtain ⟨intent, own, -, -, rfl⟩ := plan_eq_ok_iff.mp hplan
  set plan := gen.planAt intent name own request with hdef
  have htake := congrArg List.length (Generator.utterances_rest_start plan split)
  rw [List.length_map, List.length_take] at htake
  have hnovel := (novelties_sublist (gen.material plan)).length_le
  have hlooks : (gen.material plan).length ≤ gen.looks plan := length_pulled_le _ _ _
  rw [hdef, total_split_planAt, ← hdef]
  rcases hstrategy : plan.strategy with paths | draws
  · -- there are no more looks than paths
    obtain ⟨hcount, -⟩ := of_chooseStrategy_eq_exhaustive hstrategy
    have hpaths : gen.looks plan = paths := by
      rw [Generator.looks, hstrategy]
      show (gen.graph.count intent).toNat = paths
      rw [hcount]
      rfl
    rw [Strategy.expected]
    omega
  · have htarget : plan.target = draws := target_of_chooseStrategy_eq_sampled hstrategy
    rw [Strategy.expected]
    omega

/-- The utterances of a plan, each with what it is for. -/
theorem Generator.labelled_outcome {gen : Generator} (plan : Plan gen.graph) :
    (gen.outcome plan .never).1 =
      let us := (novelties (gen.material plan)).take plan.target
      ((List.range us.length).map (plan.split.fitted us.length).assign).zip us := by
  have hutterances := Generator.utterances_outcome plan
  have hlabels := Generator.labels_outcome plan
  rw [← List.length_map (·.2), hutterances] at hlabels
  exact List.zip_of_prod hlabels hutterances

/-- Of the two greetings that can be told apart the second is for testing. -/
theorem outcome_greetings : (Generator.greetings.outcome Plan.greetings .never).1
    = [(.training, wordTokens ["hello", "there"]), (.testing, wordTokens ["hello"])] := by
  rw [Generator.labelled_outcome]
  decide +kernel

/-! ### The theorem -/

/-- **What a stream is split for** is what `Split.resize` comes to, as long as fewer than `2 ^ 63`
utterances are counted. -/
theorem Generator.resize_eq_fitSplit {gen : Generator} (plan : Plan gen.graph) (c : Cancellation)
    (htotal : plan.split.total ≤ maxCount)
    (hcounted : 2 * (gen.rest plan (gen.start plan (.none plan.target)) c).1.length ≤ maxCount)
    (htest : 0 < plan.split.test) :
    plan.split.resize (gen.rest plan (gen.start plan (.none plan.target)) c).1.length
      = .ok (gen.fitSplit plan c).1 := by
  rw [Generator.fitSplit, if_pos htest]
  apply Split.resize_eq_ok htotal
  rcases Nat.lt_or_ge (gen.rest plan (gen.start plan (.none plan.target)) c).1.length
    plan.split.total with h | h
  · exact .inr (Split.share_le_maxWide htotal h (.inr hcounted))
  · exact .inl h

/-- **A plan that is carried out keeps its share for testing.**  It yields no more utterances than
it is split for, and the same ones whatever the split; in advance as many are counted as it yields,
and its split is resized to so many, which stops the program for no number below `2 ^ 63`.  If it
yields all it is split for, as many are for testing as the split says, and if fewer, the same
share rounded to the nearest number; and of the first `n` of them the share for testing is that of
all, rounded down. -/
theorem split_fits_outcome {gen : Generator} {name : String} {request : Request}
    {plan : Plan gen.graph} (hplan : gen.plan name request = .ok plan) :
    ∃ xs s, gen.outcome plan .never = (xs, s, .never) ∧
      xs.length ≤ plan.split.total ∧
      (gen.rest plan (gen.start plan (.none plan.target)) .never).1.length = xs.length ∧
      (gen.fitSplit plan .never).1 = plan.split.fitted xs.length ∧
      (plan.split.total ≤ maxCount → 2 * xs.length ≤ maxCount → 0 < plan.split.test →
        plan.split.resize xs.length = .ok (gen.fitSplit plan .never).1) ∧
      (∀ split, (gen.outcome { plan with split } .never).1.map (·.2) = xs.map (·.2)) ∧
      (xs.length = plan.split.total → testing xs = plan.split.test) ∧
      (xs.length < plan.split.total → 0 < plan.split.test →
        testing xs
          = (2 * plan.split.test * xs.length + plan.split.total) / (2 * plan.split.total)) ∧
      (plan.split.test = 0 → testing xs = 0) ∧
      (1 ≤ xs.length → ∀ n ≤ xs.length,
        testing (xs.take n) = n * testing xs / xs.length) := by
  obtain ⟨xs, s, read, hrest, -⟩ :=
    Generator.exists_rest_start plan (gen.fitSplit plan .never).1
  have houtcome : gen.outcome plan .never = (xs, s, .never) := by
    rw [Generator.outcome_never, hrest]
  have hutterances := Generator.utterances_outcome plan
  have hcounted := Generator.length_rest_start plan (.none plan.target)
  have hlabels := Generator.labels_outcome plan
  rw [houtcome] at hutterances hcounted hlabels
  have hfit : (gen.fitSplit plan .never).1 = plan.split.fitted xs.length := by
    rw [Generator.fitSplit_never, hcounted]
  have hle : xs.length ≤ plan.split.total := hcounted ▸ length_rest_start_le hplan _
  obtain ⟨htotal, hfits⟩ := plan.split.total_fitted hle
  obtain ⟨htesting, htake⟩ := testing_take_eq hlabels htotal hfits
  refine ⟨xs, s, houtcome, hle, hcounted, hfit, fun hword hhalf htest => ?_, fun split => ?_,
    fun hall => ?_, fun hlt htest => ?_, fun htest => ?_, fun _ n hn => ?_⟩
  · rw [← hcounted] at hhalf ⊢
    exact Generator.resize_eq_fitSplit plan .never hword hhalf htest
  · exact (Generator.utterances_outcome { plan with split }).trans hutterances.symm
  · rw [htesting, hall, Split.test_fitted_total]
  · rw [htesting, Split.test_fitted_of_lt _ hlt htest]
  · rw [htesting, Split.test_fitted_of_test_eq_zero _ htest]
  · rw [htake n hn, htesting]

/-- Of three greetings one would be for testing, and so it is of the two that are yielded. -/
theorem split_of_greetings : Generator.greetings.plan "greet" {} = .ok Plan.greetings ∧
    Plan.greetings.split.total = 3 ∧ Plan.greetings.split.test = 1 ∧
    ∃ xs s, Generator.greetings.outcome Plan.greetings .never = (xs, s, .never) ∧
      xs.length = 2 ∧ testing xs = 1 := by
  have hplan : Generator.greetings.plan "greet" {} = .ok Plan.greetings := rfl
  obtain ⟨xs, s, houtcome, -, hcounted, -, -, -, -, hfewer, -⟩ := split_fits_outcome hplan
  have htotal : Plan.greetings.split.total = 3 := by decide +kernel
  have htest : Plan.greetings.split.test = 1 := by decide +kernel
  have hnovel : ((novelties (Generator.greetings.material Plan.greetings)).take
      Plan.greetings.target).length = 2 := by decide +kernel
  have hlength : xs.length = 2 := by
    rw [← hcounted, ← hnovel, ← Generator.utterances_rest_start, List.length_map]
  refine ⟨hplan, htotal, htest, xs, s, houtcome, hlength, ?_⟩
  rw [hfewer (by rw [hlength, htotal]; decide) (by rw [htest]; decide), hlength, htotal, htest]

end IntentGrammar
