import IntentGrammar.Split
import Mathlib.Tactic.Ring

/-!
# Splits for fewer utterances

A split for fewer utterances is worked out in 128 bits, as is what one utterance is for.  The
products of `Split.assignWide` always fit (`Split.assignWide_eq`).  Those of `Split.resize` need
not: of two numbers below `2 ^ 64` one is doubled.  It comes to `Split.rescale` exactly if they fit
(**`Split.resize_eq_ok_iff`**), and otherwise the program stops (`Split.resize_of_overflow`).
-/

namespace IntentGrammar

namespace Split

variable (s : Split) {unique : Nat}

/-! ### The share of fewer utterances -/

/-- The rounded share of fewer utterances is not more than there are. -/
theorem rounded_share_le (h : unique < s.total) :
    (2 * s.test * unique + s.total) / (2 * s.total) ≤ unique := by
  have htotal : 0 < 2 * s.total := by omega
  rw [← Nat.lt_succ_iff, Nat.div_lt_iff_lt_mul htotal]
  have hmul : s.test * unique ≤ s.total * unique := Nat.mul_le_mul_right _ s.test_le_total
  calc 2 * s.test * unique + s.total
      = 2 * (s.test * unique) + s.total := by ring
    _ ≤ 2 * (s.total * unique) + s.total := by omega
    _ < (unique + 1) * (2 * s.total) := by
      have hexpand : (unique + 1) * (2 * s.total) = 2 * (s.total * unique) + 2 * s.total := by ring
      omega

/-- A split for fewer utterances. -/
theorem rescale_of_lt (h : unique < s.total) :
    (s.rescale unique).total = unique ∧
      (s.rescale unique).test = (2 * s.test * unique + s.total) / (2 * s.total) := by
  rw [rescale, if_neg (Nat.not_le.mpr h)]
  exact ⟨rfl, Nat.min_eq_left (s.rounded_share_le h)⟩

theorem rescale_of_le (h : s.total ≤ unique) : s.rescale unique = s := by
  rw [rescale, if_pos h]

/-! ### What fits in 128 bits -/

theorem narrow_of_le {n : Nat} (h : n ≤ maxCount) : narrow n = n :=
  Nat.mod_eq_of_lt (Nat.lt_succ_of_le h)

/-- The product of two words of 64 bits fits, and so it does with another word added to it. -/
theorem mul_add_le_maxWide {m n k : Nat} (hm : m ≤ maxCount) (hn : n ≤ maxCount)
    (hk : k ≤ maxCount) : m * n + k ≤ maxWide :=
  calc m * n + k
      ≤ maxCount * maxCount + maxCount := Nat.add_le_add (Nat.mul_le_mul hm hn) hk
    _ ≤ maxWide := by decide

theorem two_mul_le_maxWide {n : Nat} (hn : n ≤ maxCount) : 2 * n ≤ maxWide :=
  mul_add_le_maxWide (by decide) hn (Nat.zero_le _)

/-- **No product of `assignWide` is too large.** -/
theorem succ_mul_test_le {k : Nat} (htotal : s.total ≤ maxCount) (hk : k < s.total) :
    (k + 1) * s.test ≤ maxWide :=
  mul_add_le_maxWide (hk.trans_le htotal) (s.test_le_total.trans htotal) (Nat.zero_le _)

theorem assignWide_eq (htotal : s.total ≤ maxCount) (k : Nat) :
    s.assignWide k = .ok (s.assign k) := by
  rw [assignWide, assign]
  split
  · rfl
  · next hin =>
    have hk : k < s.total := by omega
    have hnext := s.succ_mul_test_le htotal hk
    have hmul : k * s.test ≤ (k + 1) * s.test := Nat.mul_le_mul_right _ (Nat.le_succ k)
    have hword : k + 1 ≤ maxWide := (hk.trans_le htotal).trans (by decide)
    rw [checked_bind_of_le hword, checked_bind_of_le hnext, checked_bind_of_le (hmul.trans hnext)]
    split
    · rfl
    · rfl

variable {s}

theorem resize_of_le (h : s.total ≤ unique) : s.resize unique = .ok s := by
  rw [resize, if_pos h]

/-- Only the product and the sum can be too large, the product before the sum. -/
theorem resize_of_lt (htotal : s.total ≤ maxCount) (h : unique < s.total) :
    s.resize unique
      = if maxWide < 2 * s.test * unique then .error .multiplication
        else if maxWide < 2 * s.test * unique + s.total then .error .addition
        else .ok (s.rescale unique) := by
  have hdouble := two_mul_le_maxWide htotal
  have htest := two_mul_le_maxWide (s.test_le_total.trans htotal)
  have hshare : (2 * s.test * unique + s.total) / (2 * s.total) ≤ maxCount :=
    (s.rounded_share_le h).trans (h.le.trans htotal)
  rw [resize, if_neg (Nat.not_le.mpr h), checked_bind_of_le htest]
  split
  · next hproduct => rw [checked_bind_of_lt hproduct]
  · next hproduct =>
    rw [checked_bind_of_le (Nat.not_lt.mp hproduct)]
    split
    · next hsum => rw [checked_bind_of_lt hsum]
    · next hsum =>
      rw [checked_bind_of_le (Nat.not_lt.mp hsum), checked_bind_of_le hdouble, narrow_of_le hshare,
        rescale, if_neg (Nat.not_le.mpr h)]
      rfl

/-- **A split for fewer utterances** is worked out if no step is too large. -/
theorem resize_eq_ok (htotal : s.total ≤ maxCount)
    (hfits : s.total ≤ unique ∨ 2 * s.test * unique + s.total ≤ maxWide) :
    s.resize unique = .ok (s.rescale unique) := by
  rcases Nat.lt_or_ge unique s.total with h | h
  · have hsum : 2 * s.test * unique + s.total ≤ maxWide := by omega
    rw [resize_of_lt htotal h, if_neg (by omega), if_neg (by omega)]
  · rw [resize_of_le h, s.rescale_of_le h]

/-- **If a step is too large**, the program stops. -/
theorem resize_of_overflow (htotal : s.total ≤ maxCount) (h : unique < s.total)
    (hover : maxWide < 2 * s.test * unique + s.total) :
    s.resize unique
      = .error (if maxWide < 2 * s.test * unique then .multiplication else .addition) := by
  rw [resize_of_lt htotal h, if_pos hover]
  split
  · rfl
  · rfl

theorem resize_eq_ok_iff (htotal : s.total ≤ maxCount) (unique : Nat) :
    s.resize unique = .ok (s.rescale unique) ↔
      s.total ≤ unique ∨ 2 * s.test * unique + s.total ≤ maxWide := by
  refine ⟨fun heq => ?_, resize_eq_ok htotal⟩
  by_contra! hover
  rw [resize_of_overflow htotal hover.1 hover.2] at heq
  cases heq

/-- As long as one of the two numbers has a bit to spare, no step is too large. -/
theorem share_le_maxWide (htotal : s.total ≤ maxCount) (h : unique < s.total)
    (hhalf : 2 * s.test ≤ maxCount ∨ 2 * unique ≤ maxCount) :
    2 * s.test * unique + s.total ≤ maxWide := by
  rcases hhalf with hhalf | hhalf
  · exact mul_add_le_maxWide hhalf (h.le.trans htotal) htotal
  · rw [Nat.mul_comm 2, Nat.mul_assoc]
    exact mul_add_le_maxWide (s.test_le_total.trans htotal) hhalf htotal

end Split

end IntentGrammar
