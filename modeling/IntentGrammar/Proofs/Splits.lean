import IntentGrammar.Proofs.Quotas

/-!
# Splits to the last utterance

A split tests evenly not only from the first utterance on (`Split.count_assign`) but in every block
of consecutive ones (`Split.testedFrom_eq_or`), and the last of all is for testing if any is
(**`tests_are_spread_evenly`**).

A split for fewer utterances keeps the share, rounded to the nearest number, as long as the products
fit in 128 bits (**`resized_shares_are_nearest`**).  Those of `Split.assignWide` always do.  That of
`Split.resize` need not: of two numbers below `2 ^ 64` one is doubled, and the product can be more
than `2 ^ 128`, for which there is no new split (**`shares_are_exact_below_overflow`**).
-/

namespace IntentGrammar

/-! ### Quotients -/

/-- A remainder is one more when the quotient is rounded up. -/
theorem ceilDiv_of_mod_pos (b : Nat) {c : Nat} (hc : 0 < c) (hb : 0 < b % c) :
    b ⌈/⌉ c = b / c + 1 := by
  have hparts := Nat.div_add_mod b c
  have hmod := Nat.mod_lt b hc
  apply Nat.le_antisymm
  · rw [ceilDiv_le_iff_le_mul hc, Nat.mul_add_one]
    omega
  · rw [Nat.succ_le_iff, ← Nat.not_le, ceilDiv_le_iff_le_mul hc]
    omega

/-- A summand adds its quotient, rounded down or, if the remainders carry, up. -/
theorem add_div_eq_or (a b : Nat) {c : Nat} (hc : 0 < c) :
    (a + b) / c = a / c + b / c ∨ (a + b) / c = a / c + b ⌈/⌉ c := by
  rw [Nat.add_div hc]
  split
  · next hcarry =>
    have hmod := Nat.mod_lt a hc
    exact .inr (by rw [ceilDiv_of_mod_pos b hc (by omega), Nat.add_assoc])
  · exact .inl (Nat.add_zero _)

namespace Split

variable (s : Split)

/-! ### Blocks of utterances -/

/-- How many of the `length` utterances from position `start` on are for testing. -/
def testedFrom (start length : Nat) : Nat :=
  ((List.range' start length).map s.assign).count .testing

/-- A block is tested in its parts. -/
theorem testedFrom_add (start m n : Nat) :
    s.testedFrom start (m + n) = s.testedFrom start m + s.testedFrom (start + m) n := by
  rw [testedFrom, ← List.range'_append_1, List.map_append, List.count_append, testedFrom,
    testedFrom]

theorem testedFrom_zero {n : Nat} (hn : n ≤ s.total) :
    s.testedFrom 0 n = n * s.test / s.total := by
  rw [testedFrom, ← List.range_eq_range', s.count_assign hn]

/-- All that is kept for testing is tested. -/
theorem testedFrom_total : s.testedFrom 0 s.total = s.test := by
  rw [s.testedFrom_zero le_rfl]
  rcases Nat.eq_zero_or_pos s.total with htotal | htotal
  · have htest := s.test_le_total
    rw [htotal, Nat.div_zero]
    omega
  · exact Nat.mul_div_cancel_left _ htotal

/-- Nothing beyond the utterances expected is for testing. -/
theorem assign_of_total_le {k : Nat} (h : s.total ≤ k) : s.assign k = .training := by
  rw [assign, if_pos (.inr h)]

theorem testedFrom_of_total_le {start : Nat} (h : s.total ≤ start) (n : Nat) :
    s.testedFrom start n = 0 := by
  rw [testedFrom, List.count_eq_zero]
  intro hmem
  obtain ⟨k, hk, hassign⟩ := List.mem_map.mp hmem
  rw [s.assign_of_total_le (h.trans (List.mem_range'_1.mp hk).1)] at hassign
  cases hassign

/-- **In every block** the share of its length is for testing, rounded down or up. -/
theorem testedFrom_eq_or {start length : Nat} (htotal : 0 < s.total)
    (h : start + length ≤ s.total) :
    s.testedFrom start length = length * s.test / s.total ∨
      s.testedFrom start length = length * s.test ⌈/⌉ s.total := by
  -- it is what the first `start + length` have more than the first `start`
  have hparts := s.testedFrom_add 0 start length
  rw [s.testedFrom_zero h, s.testedFrom_zero (Nat.le_of_add_right_le h), Nat.zero_add,
    Nat.add_mul] at hparts
  rcases add_div_eq_or (start * s.test) (length * s.test) htotal with hdown | hup
  · left
    omega
  · right
    omega

/-- The last utterance is for testing if any is. -/
theorem assign_last (htest : 0 < s.test) : s.assign (s.total - 1) = .testing := by
  have hle := s.test_le_total
  have htotal : 0 < s.total := Nat.lt_of_lt_of_le htest hle
  have hlast : (s.total - 1) * s.test / s.total < s.test := by
    rw [Nat.div_lt_iff_lt_mul htotal, Nat.mul_comm]
    exact Nat.mul_lt_mul_of_pos_left (Nat.sub_lt htotal Nat.one_pos) htest
  rw [assign, if_neg (by omega), Nat.sub_add_cancel htotal, Nat.mul_div_cancel_left _ htotal,
    if_pos hlast]

/-- If not all are for testing, one is for training. -/
theorem exists_training (h : s.test < s.total) : ∃ k < s.total, s.assign k = .training := by
  by_contra! hnone
  have hall : s.testedFrom 0 s.total = s.total := by
    rw [testedFrom, List.count_eq_length.mpr, List.length_map, List.length_range']
    intro part hpart
    obtain ⟨k, hk, rfl⟩ := List.mem_map.mp hpart
    have hkept := hnone k (by simpa using hk)
    cases hassign : s.assign k with
    | training => exact absurd hassign hkept
    | testing => rfl
  rw [s.testedFrom_total] at hall
  omega

/-! ### Fewer utterances -/

section Fewer

variable {s} {unique : Nat}

/-- If more than half an utterance is left for training, the share for testing is rounded to less
than all. -/
theorem round_share_lt {total test : Nat} (htotal : 0 < total)
    (hhalf : (1 / 2 : ℚ) < ((total : ℚ) - test) * unique / total) :
    round ((test * unique : ℚ) / total) < unique := by
  have hne : (total : ℚ) ≠ 0 := by exact_mod_cast htotal.ne'
  have hrest : (test * unique : ℚ) / total = unique - ((total : ℚ) - test) * unique / total := by
    field_simp
    ring
  rw [round_eq, Int.floor_lt, hrest]
  push_cast
  linarith

/-- A split for fewer utterances, if its product fits. -/
theorem exists_resize_eq (htotal : s.total ≤ maxCount) (h : unique < s.total)
    (hfits : 2 * s.test * unique + s.total ≤ maxWide) :
    ∃ r, s.resize unique = .ok r ∧ r.total = unique ∧
      r.test = (2 * s.test * unique + s.total) / (2 * s.total) :=
  ⟨_, resize_eq_ok htotal (.inr hfits), s.rescale_of_lt h⟩

end Fewer

end Split

/-! ### The theorems -/

/-- **Tests are spread evenly.**  Of the first `n` utterances that a split is for,
`n * test / total` rounded down are for testing, and none beyond; so as many as are kept for testing
are tested, every block of consecutive utterances is tested in its share, rounded down or up, and
the last utterance is for testing if any is. -/
theorem tests_are_spread_evenly {total test : Nat} (htotal : 1 ≤ total) (htest : test ≤ total) :
    (∀ n ≤ total, (Split.fixed total test).testedFrom 0 n = n * test / total) ∧
      (∀ k, total ≤ k → (Split.fixed total test).assign k = .training) ∧
      (∀ n, total ≤ n → (Split.fixed total test).testedFrom 0 n = test) ∧
      (∀ start length, start + length ≤ total →
        (Split.fixed total test).testedFrom start length = length * test / total ∨
          (Split.fixed total test).testedFrom start length = length * test ⌈/⌉ total) ∧
      (0 < test → (Split.fixed total test).assign (total - 1) = .testing) := by
  set s := Split.fixed total test with hs
  have hall : s.total = total := rfl
  have hkept : s.test = test := Nat.min_eq_left htest
  refine ⟨fun n hn => ?_, fun k hk => s.assign_of_total_le hk, fun n hn => ?_,
    fun start length h => ?_, fun hpos => ?_⟩
  · rw [s.testedFrom_zero hn, hall, hkept]
  · obtain ⟨m, rfl⟩ := Nat.exists_eq_add_of_le hn
    rw [s.testedFrom_add, ← hall, s.testedFrom_total, s.testedFrom_of_total_le (by omega), hkept,
      Nat.add_zero]
  · rw [← hkept, ← hall]
    exact s.testedFrom_eq_or htotal h
  · rw [← hall]
    exact s.assign_last (by omega)

/-- Of five utterances two are for testing, the last of all and the one in the middle. -/
theorem tests_of_five : 1 ≤ 5 ∧ 2 ≤ 5 ∧
    (List.range 5).map (Split.fixed 5 2).assign
      = [.training, .training, .testing, .training, .testing] ∧
    (Split.fixed 5 2).testedFrom 0 3 = 1 ∧ (Split.fixed 5 2).assign 4 = .testing := by
  have htotal : 1 ≤ 5 := by decide
  have htest : 2 ≤ 5 := by decide
  obtain ⟨hfirst, -, -, -, hlast⟩ := tests_are_spread_evenly htotal htest
  exact ⟨htotal, htest, by decide, hfirst 3 (by decide), hlast (by decide)⟩

/-- **A split for fewer utterances keeps the nearest share.**  There is one, it is for so many
utterances, and the number for testing is the share of them rounded to the nearest number, a half
rounded up.  It is never more than there are utterances, so that it need not be cut; it is no
smaller for more utterances or for a larger share; of nothing it is nothing and of all it is all;
and if the share for training is more than a half, one utterance is left for training. -/
theorem resized_shares_are_nearest {s : Split} {unique : Nat} (htotal : s.total ≤ maxCount)
    (hunique : unique < s.total) (hfits : 2 * s.test * unique + s.total ≤ maxWide) :
    ∃ r, s.resize unique = .ok r ∧ r.total = unique ∧
      (r.test : ℤ) = round ((s.test * unique : ℚ) / s.total) ∧
      r.test = (2 * s.test * unique + s.total) / (2 * s.total) ∧
      (2 * s.test * unique + s.total) / (2 * s.total) ≤ unique ∧
      (∀ fewer ≤ unique, ∃ r', s.resize fewer = .ok r' ∧ r'.test ≤ r.test) ∧
      (∀ s' : Split, s'.total = s.total → s'.test ≤ s.test →
        ∃ r', s'.resize unique = .ok r' ∧ r'.test ≤ r.test) ∧
      (s.test = 0 → r.test = 0) ∧
      (s.test = s.total → r.test = unique) ∧
      ((1 / 2 : ℚ) < ((s.total : ℚ) - s.test) * unique / s.total →
        r.test < unique ∧ ∃ k < unique, r.assign k = .training) := by
  obtain ⟨r, hresize, hresized, htest⟩ := Split.exists_resize_eq htotal hunique hfits
  have hpos : 0 < s.total := Nat.zero_lt_of_lt hunique
  have hround : (r.test : ℤ) = round ((s.test * unique : ℚ) / s.total) := by
    rw [htest, Split.rounded_share_eq]
  refine ⟨r, hresize, hresized, hround, htest, s.rounded_share_le hunique, fun fewer hfewer => ?_,
    fun s' htotal' htest' => ?_, fun hnone => ?_, fun hfull => ?_, fun hhalf => ?_⟩
  · have hle : 2 * s.test * fewer + s.total ≤ 2 * s.test * unique + s.total :=
      Nat.add_le_add_right (Nat.mul_le_mul_left _ hfewer) _
    obtain ⟨r', hresize', -, hfewer'⟩ :=
      Split.exists_resize_eq htotal (hfewer.trans_lt hunique) (hle.trans hfits)
    refine ⟨r', hresize', ?_⟩
    rw [htest, hfewer']
    exact Nat.div_le_div_right hle
  · have hle : 2 * s'.test * unique + s'.total ≤ 2 * s.test * unique + s.total :=
      Nat.add_le_add (Nat.mul_le_mul_right _ (Nat.mul_le_mul_left 2 htest')) htotal'.le
    obtain ⟨r', hresize', -, hsmaller⟩ :=
      Split.exists_resize_eq (htotal' ▸ htotal) (htotal' ▸ hunique) (hle.trans hfits)
    refine ⟨r', hresize', ?_⟩
    rw [htest, hsmaller, htotal']
    exact Nat.div_le_div_right (htotal' ▸ hle)
  · rw [htest, hnone, Nat.mul_zero, Nat.zero_mul, Nat.zero_add]
    exact Nat.div_eq_of_lt (by omega)
  · -- half of the divisor, which is added to round up, is lost in the division
    rw [htest, hfull, Nat.add_comm, Nat.add_mul_div_left _ _ (by omega),
      Nat.div_eq_of_lt (by omega), Nat.zero_add]
  · have hbelow : (r.test : ℤ) < unique := hround ▸ Split.round_share_lt hpos hhalf
    have hlt : r.test < unique := by exact_mod_cast hbelow
    refine ⟨hlt, ?_⟩
    obtain ⟨k, hk, hassign⟩ := r.exists_training (by rwa [hresized])
    exact ⟨k, hresized ▸ hk, hassign⟩

/-- Of four utterances one is for testing, and of two of them still one: a half is rounded up. -/
theorem one_of_two_is_tested : (Split.fixed 4 1).total ≤ maxCount ∧
    2 < (Split.fixed 4 1).total ∧
    2 * (Split.fixed 4 1).test * 2 + (Split.fixed 4 1).total ≤ maxWide ∧
    ∃ r, (Split.fixed 4 1).resize 2 = .ok r ∧ r.total = 2 ∧ r.test = 1 ∧
      ∃ k < 2, r.assign k = .training := by
  have htotal : (Split.fixed 4 1).total ≤ maxCount := by decide
  have hunique : 2 < (Split.fixed 4 1).total := by decide
  have hfits : 2 * (Split.fixed 4 1).test * 2 + (Split.fixed 4 1).total ≤ maxWide := by decide
  obtain ⟨r, hresize, hresized, -, htest, -, -, -, -, -, htraining⟩ :=
    resized_shares_are_nearest htotal hunique hfits
  refine ⟨htotal, hunique, hfits, r, hresize, hresized, htest, (htraining ?_).2⟩
  norm_num [Split.fixed]

/-- **Shares are exact below the overflow.**  The products for one utterance always fit in 128 bits,
and what it is for is what the split says.  The product for fewer utterances fits if the number kept
for testing or that of the utterances is below `2 ^ 63`.  The new split is the right one exactly if
it fits; if it does not fit, there is none, and the program stops at the product or at the sum. -/
theorem shares_are_exact_below_overflow {s : Split} (htotal : s.total ≤ maxCount) :
    (∀ k < s.total, (k + 1) * s.test ≤ maxWide) ∧
      (∀ k, s.assignWide k = .ok (s.assign k)) ∧
      (∀ unique < s.total, 2 * s.test ≤ maxCount ∨ 2 * unique ≤ maxCount →
        2 * s.test * unique + s.total ≤ maxWide) ∧
      (∀ unique, s.resize unique = .ok (s.rescale unique) ↔
        s.total ≤ unique ∨ 2 * s.test * unique + s.total ≤ maxWide) ∧
      (∀ unique < s.total, maxWide < 2 * s.test * unique + s.total → s.resize unique
        = .error (if maxWide < 2 * s.test * unique then .multiplication else .addition)) :=
  ⟨fun _ hk => s.succ_mul_test_le htotal hk, s.assignWide_eq htotal,
    fun _ hunique hhalf => Split.share_le_maxWide htotal hunique hhalf,
    Split.resize_eq_ok_iff htotal,
    fun _ hunique hover => Split.resize_of_overflow htotal hunique hover⟩

/-- Of all numbers below `2 ^ 64` a share of a third, for one utterance fewer. -/
theorem third_of_most_is_exact :
    (Split.fixed maxCount (maxCount / 3)).total ≤ maxCount ∧
      (Split.fixed maxCount (maxCount / 3)).resize (maxCount - 1)
        = .ok ((Split.fixed maxCount (maxCount / 3)).rescale (maxCount - 1)) := by
  have htotal : (Split.fixed maxCount (maxCount / 3)).total ≤ maxCount := by decide
  obtain ⟨-, -, hfits, hexact, -⟩ := shares_are_exact_below_overflow htotal
  exact ⟨htotal, (hexact _).mpr (.inr (hfits _ (by decide) (.inl (by decide))))⟩

/-- Just over half of all numbers below `2 ^ 64` are for testing.  For one utterance fewer it would
be one fewer, but the sum is too large, and the program stops. -/
theorem share_lost_to_overflow :
    let s := Split.fixed 18446744073709551615 9223372036854775809
    s.total ≤ maxCount ∧ s.test ≤ s.total ∧ 18446744073709551614 < s.total ∧
      maxWide < 2 * s.test * 18446744073709551614 + s.total ∧
      (s.rescale 18446744073709551614).test = 9223372036854775808 ∧
      s.resize 18446744073709551614 = .error .addition := by
  intro s
  have htotal : s.total ≤ maxCount := by decide
  have hunique : 18446744073709551614 < s.total := by decide
  have hover : maxWide < 2 * s.test * 18446744073709551614 + s.total := by decide
  refine ⟨htotal, s.test_le_total, hunique, hover, by decide, ?_⟩
  rw [Split.resize_of_overflow htotal hunique hover, if_neg (by decide)]

end IntentGrammar
