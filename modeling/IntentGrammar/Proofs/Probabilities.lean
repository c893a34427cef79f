import IntentGrammar.Graph.Build
import Mathlib

/-!
# When sentences have probabilities

The sentences of a definition get one probability each, unless there are no sentences or their
weights add up to more than a hundred.
-/

namespace IntentGrammar

/-! ### For any kind of number -/

section Weights

open WeightNumber

variable {α : Type} [WeightNumber α] {distribution : Distribution} {ceiling : Nat}
  {sentences : List (Option α × Cardinality)}

/-- Sentences have probabilities unless there are none or their weights exceed a hundred. -/
theorem exists_probabilities_iff :
    (∃ ps, Weight.probabilities distribution ceiling sentences = .ok ps) ↔
      sentences ≠ [] ∧
        lt (add (ofNat 100) tolerance) (Weight.sum (sentences.filterMap (·.1))) = false := by
  rw [Weight.probabilities]
  rcases sentences with _ | ⟨s, sentences⟩
  · exact ⟨nofun, fun h => absurd rfl h.1⟩
  · simp only [List.isEmpty_cons, Bool.false_eq_true, if_false, ne_eq, reduceCtorEq,
      not_false_eq_true, true_and]
    split
    · next hlt => exact ⟨nofun, fun h => absurd (h.symm.trans hlt) Bool.false_ne_true⟩
    · next hlt =>
      refine ⟨fun _ => Bool.eq_false_of_not_eq_true hlt, fun _ => ?_⟩
      split
      · split
        · exact ⟨_, rfl⟩
        · exact ⟨_, rfl⟩
      · exact ⟨_, rfl⟩

/-- There is one probability for each sentence. -/
theorem length_probabilities {ps : List α}
    (h : Weight.probabilities distribution ceiling sentences = .ok ps) :
    ps.length = sentences.length := by
  rw [Weight.probabilities] at h
  split at h
  · cases h
  · split at h
    · cases h
    · split at h
      · split at h
        · cases h
          rw [List.length_map]
        · cases h
          rw [List.length_map]
      · cases h
        rw [List.length_map]

end Weights

/-! ### For definitions -/

/-- The limit that weights are compared with. -/
theorem weight_limit :
    WeightNumber.add (WeightNumber.ofNat 100) (WeightNumber.tolerance : Float) = 100.0 + 1e-9 := by
  decide +kernel

theorem filterMap_fst_zip {α β : Type} {xs : List (Option α)} {ys : List β}
    (h : xs.length ≤ ys.length) : (xs.zip ys).filterMap (·.1) = xs.filterMap id := by
  have hmap : (xs.zip ys).map Prod.fst = xs := List.map_fst_zip h
  conv_rhs => rw [← hmap, List.filterMap_map]
  rfl

variable {n : Nat} {v : Node n} {counts : List Cardinality} {ceiling : Nat}

/-- A definition has probabilities if it has a sentence and its weights are not too large. -/
theorem exists_node_probabilities_iff (hlen : counts.length = v.choices.length) :
    (∃ ps, v.probabilities ceiling counts = .ok ps) ↔
      v.choices ≠ [] ∧ ¬ (100.0 + 1e-9 : Float) < Weight.sum (v.choices.filterMap (·.weight)) := by
  set sentences := (v.choices.map Choice.weight).zip counts with hsentences
  have hok : (∃ ps, v.probabilities ceiling counts = .ok ps) ↔
      ∃ ps, Weight.probabilities v.distribution ceiling sentences = .ok ps := by
    rw [Node.probabilities, ← hsentences]
    rcases Weight.probabilities v.distribution ceiling sentences with fault | ps
    · exact ⟨nofun, nofun⟩
    · exact ⟨fun _ => ⟨_, rfl⟩, fun _ => ⟨_, rfl⟩⟩
  have hnil : sentences = [] ↔ v.choices = [] := by
    rw [← List.length_eq_zero_iff, ← List.length_eq_zero_iff, hsentences, List.length_zip,
      List.length_map, hlen, Nat.min_self]
  have hweights : sentences.filterMap (·.1) = v.choices.filterMap (·.weight) := by
    rw [hsentences, filterMap_fst_zip (by simp [hlen]), List.filterMap_map]
    rfl
  rw [hok, exists_probabilities_iff, Ne, hnil, hweights, weight_limit]
  refine and_congr_right fun _ => ?_
  exact decide_eq_false_iff_not

theorem length_node_probabilities {ps : List Float} (hlen : counts.length = v.choices.length)
    (h : v.probabilities ceiling counts = .ok ps) : ps.length = v.choices.length := by
  rw [Node.probabilities] at h
  rcases hps : Weight.probabilities v.distribution ceiling
    ((v.choices.map Choice.weight).zip counts) with fault | qs
  · rw [hps] at h
    cases h
  · rw [hps] at h
    cases h
    rw [length_probabilities hps, List.length_zip, List.length_map, hlen, Nat.min_self]

/-- A definition without probabilities is empty, or its weights are too large. -/
theorem eq_of_node_probabilities_eq_error {e : Error}
    (h : v.probabilities ceiling counts = .error e) :
    e = .emptyDefinition v.key ∨ ∃ total, e = .weightOverflow v.key total := by
  rw [Node.probabilities] at h
  rcases hps : Weight.probabilities v.distribution ceiling
    ((v.choices.map Choice.weight).zip counts) with fault | qs
  · rw [hps] at h
    cases h
    cases fault with
    | noSentences => exact .inl rfl
    | overHundred total => exact .inr ⟨total, rfl⟩
  · rw [hps] at h
    cases h

end IntentGrammar
