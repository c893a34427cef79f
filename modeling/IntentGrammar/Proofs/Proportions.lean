import IntentGrammar.Graph.Weight
import Mathlib

/-!
# Weights as exact fractions

With fractions in place of rounded numbers the rule for probabilities keeps what it promises: the
probabilities of the sentences add up to one, weights keep their proportions, and the sentences
without a weight divide what the weights leave.

The rule tells three cases apart: every sentence has a weight and all of them are next to nothing,
every sentence has a weight and some count, or some sentence has none.  In each case the
probability of a sentence is a function of the sentence alone, once the total is known, so the
probabilities stand in the order of the sentences (`Weight.Apportions`).

The tolerance leaves one gap: weights may exceed a hundred by next to nothing.  If some sentence
has no weight the probabilities then add up to that excess over one, and to one everywhere else
(**`weights_are_apportioned`**).
-/

namespace IntentGrammar

/-- The arithmetic of fractions. -/
instance : WeightNumber ℚ where
  ofNat n := n
  add := (· + ·)
  sub := (· - ·)
  mul := (· * ·)
  div := (· / ·)
  lt a b := a < b
  le a b := a ≤ b
  tolerance := 1 / 1000000000

namespace Weight

/-! ### The parts of the rule -/

/-- Next to nothing: a billionth. -/
def nextToNothing : ℚ := 1 / 1000000000

/-- The sum of the weights. -/
def total (sentences : List (Option ℚ × Cardinality)) : ℚ := (sentences.filterMap (·.1)).sum

/-- Every sentence has a weight. -/
def AllWeighted (sentences : List (Option ℚ × Cardinality)) : Prop := ∀ s ∈ sentences, s.1 ≠ none

/-- What a sentence without a weight claims of the part that is left: as much as any other, or its
number of expansions up to the ceiling. -/
def stake (distribution : Distribution) (ceiling : Nat) (size : Cardinality) : ℚ :=
  match distribution, size with
  | .even, _ => 1
  | .regular, .finite n => min n ceiling
  | .regular, .unbounded => ceiling

/-- What the sentences without a weight claim together. -/
def stakes (distribution : Distribution) (ceiling : Nat)
    (sentences : List (Option ℚ × Cardinality)) : ℚ :=
  ((sentences.filter (·.1.isNone)).map fun s => stake distribution ceiling s.2).sum

/-- What the weights leave of a hundred, as a part of it. -/
def remainder (sentences : List (Option ℚ × Cardinality)) : ℚ := max 0 (1 - total sentences / 100)

variable {distribution : Distribution} {ceiling : Nat} {sentences : List (Option ℚ × Cardinality)}

theorem sum_eq (xs : List ℚ) : sum xs = xs.sum := by
  have hzero : (WeightNumber.ofNat 0 : ℚ) = 0 := Nat.cast_zero
  rw [sum, hzero, List.sum_eq_foldl]
  rfl

theorem positivePart_eq (x : ℚ) : positivePart x = max 0 x := by
  have hzero : (WeightNumber.ofNat 0 : ℚ) = 0 := Nat.cast_zero
  rw [positivePart, hzero]
  show (if decide (0 < x) = true then x else 0) = _
  by_cases hx : 0 < x
  · rw [if_pos (decide_eq_true hx), max_eq_right hx.le]
  · rw [if_neg (by simpa using hx), max_eq_left (not_lt.mp hx)]

theorem share_eq (distribution : Distribution) (ceiling : Nat) (size : Cardinality) :
    share distribution ceiling size = stake distribution ceiling size := by
  cases distribution with
  | even => exact Nat.cast_one
  | regular =>
    cases size with
    | finite n => exact Nat.cast_min n ceiling
    | unbounded => exact congrArg Nat.cast (min_self ceiling)

theorem remainder_eq (sentences : List (Option ℚ × Cardinality)) :
    positivePart ((100 - total sentences) / 100) = remainder sentences := by
  rw [positivePart_eq, remainder, sub_div, div_self (by norm_num)]

theorem isEmpty_filter_iff : (sentences.filter (·.1.isNone)).isEmpty = true ↔
    AllWeighted sentences := by
  rw [List.isEmpty_iff, List.filter_eq_nil_iff, AllWeighted]
  exact forall₂_congr fun s _ => by rw [Option.isNone_iff_eq_none]

/-! ### The cases of the rule -/

/-- The probability of a sentence if some sentence has no weight. -/
def partOf (distribution : Distribution) (ceiling : Nat) (sentences : List (Option ℚ × Cardinality))
    (s : Option ℚ × Cardinality) : ℚ :=
  match s.1 with
  | some w => w / 100
  | none => remainder sentences * stake distribution ceiling s.2 /
      stakes distribution ceiling sentences

/-- Weights are refused just if they exceed a hundred by more than next to nothing. -/
theorem probabilities_of_over (hsome : sentences ≠ [])
    (hover : 100 + nextToNothing < total sentences) :
    probabilities distribution ceiling sentences = .error (.overHundred (total sentences)) := by
  rw [probabilities, sum_eq, if_neg (by simpa using hsome)]
  exact if_pos (decide_eq_true hover)

/-- Weights that are not refused: each sentence has a weight or some have none. -/
theorem probabilities_of_le (hsome : sentences ≠ [])
    (hle : total sentences ≤ 100 + nextToNothing) :
    probabilities distribution ceiling sentences
      = if (sentences.filter (·.1.isNone)).isEmpty then
          if total sentences ≤ nextToNothing then
            .ok (sentences.map fun _ => 1 / sentences.length)
          else .ok (sentences.map fun s => s.1.getD 0 / total sentences)
        else .ok (sentences.map (resolve distribution ceiling
          (sentences.filter (·.1.isNone)).length (remainder sentences)
          (stakes distribution ceiling sentences))) := by
  have hone : (WeightNumber.ofNat 1 : ℚ) = 1 := Nat.cast_one
  have hzero : (WeightNumber.ofNat 0 : ℚ) = 0 := Nat.cast_zero
  have hstakes : sum ((sentences.filter (·.1.isNone)).map fun s => share distribution ceiling s.2)
      = stakes distribution ceiling sentences := by
    rw [sum_eq, stakes]
    simp only [share_eq]
  have hnot : WeightNumber.lt (WeightNumber.add (WeightNumber.ofNat 100) WeightNumber.tolerance)
      (sentences.filterMap (·.1)).sum = false := decide_eq_false (not_lt.mpr hle)
  rw [probabilities, sum_eq, if_neg (by simpa using hsome),
    if_neg (ne_true_of_eq_false hnot), hstakes, hone, hzero, ← remainder_eq]
  split
  · by_cases htiny : total sentences ≤ nextToNothing
    · rw [if_pos htiny]
      exact if_pos (decide_eq_true htiny)
    · rw [if_neg htiny]
      exact if_neg (ne_true_of_eq_false (decide_eq_false htiny))
  · rfl

/-- The claims are positive, and so is their sum if there is one. -/
theorem stake_pos (hceiling : 1 ≤ ceiling) {size : Cardinality}
    (hsize : ∀ n ∈ size.finite?, 1 ≤ n) : 0 < stake distribution ceiling size := by
  have hpos : (0 : ℚ) < ceiling := Nat.cast_pos.mpr hceiling
  cases distribution with
  | even => exact one_pos
  | regular =>
    cases size with
    | finite n => exact lt_min (Nat.cast_pos.mpr (hsize n rfl)) hpos
    | unbounded => exact hpos

theorem stakes_pos (hceiling : 1 ≤ ceiling) (hsizes : ∀ s ∈ sentences, ∀ n ∈ s.2.finite?, 1 ≤ n)
    (hopen : ¬AllWeighted sentences) : 0 < stakes distribution ceiling sentences := by
  rw [← isEmpty_filter_iff, List.isEmpty_iff] at hopen
  apply List.sum_pos
  · intro x hx
    obtain ⟨s, hs, rfl⟩ := List.mem_map.mp hx
    exact stake_pos hceiling (hsizes s (List.mem_of_mem_filter hs))
  · simpa using hopen

theorem probabilities_of_open (hle : total sentences ≤ 100 + nextToNothing)
    (hopen : ¬AllWeighted sentences) (hpos : 0 < stakes distribution ceiling sentences) :
    probabilities distribution ceiling sentences
      = .ok (sentences.map (partOf distribution ceiling sentences)) := by
  have hsome : sentences ≠ [] := by
    rintro rfl
    exact hopen (List.forall_mem_nil _)
  rw [probabilities_of_le hsome hle, if_neg (mt isEmpty_filter_iff.mp hopen)]
  congr 1
  refine List.map_congr_left fun s _ => ?_
  obtain ⟨weight, size⟩ := s
  cases weight with
  | some w => rfl
  | none =>
    rw [resolve, share_eq]
    exact if_pos (decide_eq_true (by exact_mod_cast hpos))

/-! ### Sums -/

theorem total_cons_some (w : ℚ) (size : Cardinality) :
    total ((some w, size) :: sentences) = w + total sentences := List.sum_cons

theorem total_cons_none (size : Cardinality) :
    total ((none, size) :: sentences) = total sentences := rfl

theorem stakes_cons_none (size : Cardinality) :
    stakes distribution ceiling ((none, size) :: sentences)
      = stake distribution ceiling size + stakes distribution ceiling sentences := List.sum_cons

theorem total_nonneg (hweights : ∀ s ∈ sentences, ∀ w ∈ s.1, 0 ≤ w) : 0 ≤ total sentences := by
  apply List.sum_nonneg
  intro w hw
  obtain ⟨s, hs, hsw⟩ := List.mem_filterMap.mp hw
  exact hweights s hs w hsw

/-- The weights add up to the total. -/
theorem sum_getD (sentences : List (Option ℚ × Cardinality)) :
    (sentences.map fun s => s.1.getD 0).sum = total sentences := by
  induction sentences with
  | nil => rfl
  | cons s sentences ih =>
    obtain ⟨weight, size⟩ := s
    rw [List.map_cons, List.sum_cons, ih]
    cases weight with
    | some w => exact (total_cons_some w size).symm
    | none => exact zero_add (total sentences)

/-- The parts of some of the sentences. -/
theorem sum_partOf (all : List (Option ℚ × Cardinality)) :
    (sentences.map (partOf distribution ceiling all)).sum = total sentences / 100 +
      remainder all * stakes distribution ceiling sentences / stakes distribution ceiling all := by
  induction sentences with
  | nil => simp [total, stakes]
  | cons s sentences ih =>
    obtain ⟨weight, size⟩ := s
    rw [List.map_cons, List.sum_cons, ih]
    cases weight with
    | some w =>
      have hstakes : stakes distribution ceiling ((some w, size) :: sentences)
          = stakes distribution ceiling sentences := rfl
      rw [total_cons_some, hstakes, partOf]
      ring
    | none =>
      rw [total_cons_none, stakes_cons_none, partOf]
      ring

/-- Nothing is left just if the weights make up a hundred. -/
theorem remainder_eq_zero_iff : remainder sentences = 0 ↔ 100 ≤ total sentences := by
  rw [remainder, max_eq_left_iff, sub_nonpos, one_le_div (by norm_num)]

/-! ### What the probabilities are -/

/-- What probabilities are to the sentences that they stand for, one for each. -/
structure Apportions (distribution : Distribution) (ceiling : Nat)
    (sentences : List (Option ℚ × Cardinality)) (ps : List ℚ) : Prop where
  length_eq : ps.length = sentences.length
  nonneg : ∀ p ∈ ps, 0 ≤ p
  /-- They add up to one, but for a small excess of the weights if some sentence has none. -/
  sum_eq_one : total sentences ≤ 100 ∨ AllWeighted sentences → ps.sum = 1
  sum_eq_total : 100 < total sentences → ¬AllWeighted sentences → ps.sum = total sentences / 100
  /-- Weights keep their proportions, but for weights that are next to nothing if every sentence
  has one: they become equal. -/
  weighted : ¬(AllWeighted sentences ∧ total sentences ≤ nextToNothing) →
    ∃ k, 0 < k ∧ List.Forall₂ (fun s p => ∀ w ∈ s.1, p = k * w) sentences ps
  equal : AllWeighted sentences → total sentences ≤ nextToNothing →
    ∀ p ∈ ps, p = 1 / sentences.length
  /-- Sentences without a weight divide what the weights leave by what they claim, and they get
  nothing just if nothing is left. -/
  unweighted : List.Forall₂ (fun s p => s.1 = none → p = remainder sentences *
    stake distribution ceiling s.2 / stakes distribution ceiling sentences) sentences ps
  nothing_iff : List.Forall₂ (fun s p => s.1 = none → (p = 0 ↔ 100 ≤ total sentences)) sentences ps

/-- What holds of each sentence and its value. -/
theorem forall₂_map {R : Option ℚ × Cardinality → ℚ → Prop} {f : Option ℚ × Cardinality → ℚ}
    (h : ∀ s ∈ sentences, R s (f s)) : List.Forall₂ R sentences (sentences.map f) := by
  rw [List.forall₂_map_right_iff, List.forall₂_same]
  exact h

theorem apportions_of_tiny (hsome : sentences ≠ []) (hall : AllWeighted sentences)
    (htiny : total sentences ≤ nextToNothing) :
    Apportions distribution ceiling sentences (sentences.map fun _ => 1 / sentences.length) where
  length_eq := List.length_map _
  nonneg := by
    intro p hp
    obtain ⟨s, -, rfl⟩ := List.mem_map.mp hp
    positivity
  sum_eq_one _ := by
    have hlength : (sentences.length : ℚ) ≠ 0 :=
      Nat.cast_ne_zero.mpr (mt List.length_eq_zero_iff.mp hsome)
    rw [List.map_const', List.sum_replicate, nsmul_eq_mul, mul_one_div_cancel hlength]
  sum_eq_total _ hopen := absurd hall hopen
  weighted h := absurd ⟨hall, htiny⟩ h
  equal _ _ p hp := by
    obtain ⟨s, -, rfl⟩ := List.mem_map.mp hp
    rfl
  unweighted := forall₂_map fun s hs hnone => absurd hnone (hall s hs)
  nothing_iff := forall₂_map fun s hs hnone => absurd hnone (hall s hs)

theorem apportions_of_weighted (hweights : ∀ s ∈ sentences, ∀ w ∈ s.1, 0 ≤ w)
    (hall : AllWeighted sentences) (hsome : nextToNothing < total sentences) :
    Apportions distribution ceiling sentences
      (sentences.map fun s => s.1.getD 0 / total sentences) where
  length_eq := List.length_map _
  nonneg := by
    intro p hp
    obtain ⟨s, hs, rfl⟩ := List.mem_map.mp hp
    apply div_nonneg _ (total_nonneg hweights)
    obtain ⟨w, hw⟩ := Option.ne_none_iff_exists'.mp (hall s hs)
    rw [hw]
    exact hweights s hs w hw
  sum_eq_one _ := by
    have hpos : total sentences ≠ 0 := (lt_trans (by norm_num [nextToNothing]) hsome).ne'
    simp only [div_eq_mul_inv]
    rw [List.sum_map_mul_right, sum_getD, mul_inv_cancel₀ hpos]
  sum_eq_total _ hopen := absurd hall hopen
  weighted _ := by
    have hpos : 0 < total sentences := lt_trans (by norm_num [nextToNothing]) hsome
    refine ⟨(total sentences)⁻¹, inv_pos.mpr hpos, forall₂_map fun s _ w hw => ?_⟩
    rw [Option.mem_def.mp hw, Option.getD_some, div_eq_inv_mul]
  equal _ htiny := absurd hsome (not_lt.mpr htiny)
  unweighted := forall₂_map fun s hs hnone => absurd hnone (hall s hs)
  nothing_iff := forall₂_map fun s hs hnone => absurd hnone (hall s hs)

theorem apportions_of_open (hceiling : 1 ≤ ceiling)
    (hweights : ∀ s ∈ sentences, ∀ w ∈ s.1, 0 ≤ w)
    (hsizes : ∀ s ∈ sentences, ∀ n ∈ s.2.finite?, 1 ≤ n) (hopen : ¬AllWeighted sentences) :
    Apportions distribution ceiling sentences
      (sentences.map (partOf distribution ceiling sentences)) := by
  have hstakes : 0 < stakes distribution ceiling sentences := stakes_pos hceiling hsizes hopen
  have hremainder : 0 ≤ remainder sentences := le_max_left _ _
  have hsum : (sentences.map (partOf distribution ceiling sentences)).sum
      = total sentences / 100 + remainder sentences := by
    rw [sum_partOf, mul_div_assoc, div_self hstakes.ne', mul_one]
  refine {
    length_eq := List.length_map _
    nonneg := ?nonneg
    sum_eq_one := ?one
    sum_eq_total := ?total
    weighted := ?weighted
    equal := fun hall => absurd hall hopen
    unweighted := ?unweighted
    nothing_iff := ?nothing }
  case nonneg =>
    intro p hp
    obtain ⟨s, hs, rfl⟩ := List.mem_map.mp hp
    rcases hweight : s.1 with _ | w
    · simp only [partOf, hweight]
      have hstake : 0 ≤ stake distribution ceiling s.2 := (stake_pos hceiling (hsizes s hs)).le
      exact div_nonneg (mul_nonneg hremainder hstake) hstakes.le
    · simp only [partOf, hweight]
      exact div_nonneg (hweights s hs w hweight) (by norm_num)
  case one =>
    rintro (hle | hall)
    · have hleft : 0 ≤ 1 - total sentences / 100 := by linarith
      rw [hsum, remainder, max_eq_right hleft]
      ring
    · exact absurd hall hopen
  case total =>
    intro hover _
    rw [hsum, remainder_eq_zero_iff.mpr hover.le, add_zero]
  case weighted =>
    intro _
    refine ⟨1 / 100, by norm_num, forall₂_map fun s _ w hw => ?_⟩
    simp only [partOf, Option.mem_def.mp hw]
    ring
  case unweighted =>
    refine forall₂_map fun s _ hnone => ?_
    simp only [partOf, hnone]
  case nothing =>
    refine forall₂_map fun s hs hnone => ?_
    have hstake : 0 < stake distribution ceiling s.2 := stake_pos hceiling (hsizes s hs)
    simp only [partOf, hnone]
    rw [div_eq_zero_iff, mul_eq_zero, or_iff_left hstakes.ne', or_iff_left hstake.ne',
      remainder_eq_zero_iff]

end Weight

/-! ### The theorem -/

section Apportioning

open Weight

variable {distribution : Distribution} {ceiling : Nat} {sentences : List (Option ℚ × Cardinality)}

/-- **Weights are apportioned.**  With exact fractions, weights are refused just if they exceed a
hundred by more than next to nothing, and if they are not, each sentence gets its probability. -/
theorem weights_are_apportioned (hsome : sentences ≠ []) (hceiling : 1 ≤ ceiling)
    (hweights : ∀ s ∈ sentences, ∀ w ∈ s.1, 0 ≤ w)
    (hsizes : ∀ s ∈ sentences, ∀ n ∈ s.2.finite?, 1 ≤ n) :
    (probabilities distribution ceiling sentences = .error (.overHundred (total sentences)) ↔
      100 + nextToNothing < total sentences) ∧
    (total sentences ≤ 100 + nextToNothing →
      ∃ ps, probabilities distribution ceiling sentences = .ok ps ∧
        Apportions distribution ceiling sentences ps) := by
  have haccepted (hle : total sentences ≤ 100 + nextToNothing) :
      ∃ ps, probabilities distribution ceiling sentences = .ok ps ∧
        Apportions distribution ceiling sentences ps := by
    by_cases hall : AllWeighted sentences
    · have hcase := @probabilities_of_le distribution ceiling sentences hsome hle
      rw [if_pos (isEmpty_filter_iff.mpr hall)] at hcase
      by_cases htiny : total sentences ≤ nextToNothing
      · rw [if_pos htiny] at hcase
        exact ⟨_, hcase, apportions_of_tiny hsome hall htiny⟩
      · rw [if_neg htiny] at hcase
        exact ⟨_, hcase, apportions_of_weighted hweights hall (not_le.mp htiny)⟩
    · exact ⟨_, probabilities_of_open hle hall (stakes_pos hceiling hsizes hall),
        apportions_of_open hceiling hweights hsizes hall⟩
  -- weights that are accepted have probabilities, so they cannot be refused as well
  refine ⟨⟨fun hrefused => ?_, probabilities_of_over hsome⟩, haccepted⟩
  by_contra hover
  obtain ⟨ps, hps, -⟩ := haccepted (not_lt.mp hover)
  rw [hrefused] at hps
  cases hps

/-- Three wordings of an order: a fifth of them say it plainly, and of the others the second is
open to three orders and the third to any number of them. -/
def orders : List (Option ℚ × Cardinality) :=
  [(some 20, .finite 1), (none, .finite 3), (none, .unbounded)]

/-- With a ceiling of six, what is left is divided as three to six. -/
theorem weights_of_orders :
    orders ≠ [] ∧ total orders = 20 ∧
      probabilities .regular 6 orders = .ok [1 / 5, 4 / 15, 8 / 15] ∧
      Apportions .regular 6 orders [1 / 5, 4 / 15, 8 / 15] := by
  have hsome : orders ≠ [] := List.cons_ne_nil _ _
  have htotal : total orders = 20 := by decide +kernel
  have hle : total orders ≤ 100 + nextToNothing := by
    rw [htotal]
    norm_num [nextToNothing]
  obtain ⟨-, haccepted⟩ := @weights_are_apportioned .regular 6 orders hsome (by decide)
    (by decide +kernel) (by decide +kernel)
  obtain ⟨ps, hps, happortions⟩ := haccepted hle
  have hvalue : probabilities .regular 6 orders
      = .ok (orders.map (partOf .regular 6 orders)) :=
    probabilities_of_open hle (fun hall => hall (none, .finite 3) (by decide) rfl)
      (by decide +kernel)
  have hparts : orders.map (partOf .regular 6 orders) = [1 / 5, 4 / 15, 8 / 15] := by
    decide +kernel
  rw [hvalue, hparts] at hps
  cases hps
  exact ⟨hsome, htotal, hvalue.trans (congrArg Except.ok hparts), happortions⟩

end Apportioning

end IntentGrammar
