import IntentGrammar.Proofs.Counts

/-!
# Numbers of derivations

Where there are finitely many derivations they can be numbered in the order of the grammar
(`Derivation.number`): behind those of the earlier sentences, and among those of one sentence in
mixed radix, the first step most significant.  The radix of a step is the number of its decisions,
and the decision to drop it has the largest digit.

Numbers are below the number of derivations (`Derivation.number_lt`) and grow along the order
(`Derivation.Before.number_lt`).  So no number is given twice, and since there are as many numbers
as derivations, every one is given: `exists_derivations_in_order` lists all derivations, each at
the place of its number.
-/

namespace IntentGrammar

variable {n : Nat} {net : Network n} {v : Fin n} {s : Step n} {steps : List (Step n)}

/-! ### Numbers -/

/-- The number of derivations by the sentences of `v` before the sentence `i`. -/
noncomputable def Network.offset (net : Network n) (v : Fin n) (i : Nat) : Nat :=
  (((net.get v).choices.take i).map fun c => Nat.card (Decisions net c.steps)).sum

mutual

/-- The number of a derivation among those of its definition. -/
noncomputable def Derivation.number {v : Fin n} : Derivation net v → Nat
  | .choose i ds => net.offset v i + ds.number

/-- The number of decisions among those for the same steps. -/
noncomputable def Decisions.number : {steps : List (Step n)} → Decisions net steps → Nat
  | _, .nil => 0
  | _ :: steps, .cons d ds => d.digit * Nat.card (Decisions net steps) + ds.number

/-- The number of a decision among those for the same step. -/
noncomputable def Decision.digit : {s : Step n} → Decision net s → Nat
  | _, .keepWords => 0
  | _, .dropWords => 1
  | _, .keep d => d.number
  | .reference target _, .drop => Nat.card (Derivation net target)

end

/-! ### Offsets -/

/-- Sentences take up room after each other. -/
theorem offset_succ (net : Network n) (v : Fin n) (i : Fin (net.get v).choices.length) :
    net.offset v (i + 1)
      = net.offset v i + Nat.card (Decisions net ((net.get v).choices.get i).steps) := by
  rw [Network.offset, List.take_succ_eq_append_getElem i.isLt, List.map_append, List.sum_append]
  rfl

theorem offset_mono (net : Network n) (v : Fin n) {i j : Nat} (h : i ≤ j) :
    net.offset v i ≤ net.offset v j :=
  ((List.take_sublist_take_left h).map _).sum_le_sum fun _ _ => Nat.zero_le _

theorem offset_length (hv : ¬ net.Loops v) :
    net.offset v (net.get v).choices.length = Nat.card (Derivation net v) := by
  rw [Network.offset, List.take_length, card_derivation hv]

/-- A sentence takes up no more room than there is. -/
theorem offset_add_le (hv : ¬ net.Loops v) (i : Fin (net.get v).choices.length) :
    net.offset v i + Nat.card (Decisions net ((net.get v).choices.get i).steps)
      ≤ Nat.card (Derivation net v) := by
  rw [← offset_succ, ← offset_length hv]
  exact offset_mono net v i.isLt

/-! ### Numbers are small -/

mutual

/-- Numbers are below the number of derivations. -/
theorem Derivation.number_lt {v : Fin n} (hv : ¬ net.Loops v) :
    ∀ d : Derivation net v, d.number < Nat.card (Derivation net v)
  | .choose i ds => by
    -- the sentence has room for all its decisions between its offset and the next
    have hds := ds.number_lt (not_leads_of_not_loops hv i)
    have hroom := offset_add_le hv i
    rw [Derivation.number]
    omega

theorem Decisions.number_lt : {steps : List (Step n)} → ¬ net.Leads steps →
    ∀ ds : Decisions net steps, ds.number < Nat.card (Decisions net steps)
  | _, _, .nil => by
    rw [Nat.card_congr (Decisions.equivUnit net), Nat.card_unique, Decisions.number]
    exact Nat.one_pos
  | s :: steps, h, .cons d ds => by
    obtain ⟨hs, hsteps⟩ := not_leads_cons_iff.mp h
    have hd := d.digit_lt hs
    have hds := ds.number_lt hsteps
    -- the first digit counts blocks as long as there are decisions for the rest
    rw [card_decisions_cons, Decisions.number]
    calc d.digit * Nat.card (Decisions net steps) + ds.number
        < (d.digit + 1) * Nat.card (Decisions net steps) := by
          rw [Nat.succ_mul]
          omega
      _ ≤ Nat.card (Decision net s) * Nat.card (Decisions net steps) :=
          Nat.mul_le_mul_right _ hd

theorem Decision.digit_lt : {s : Step n} → net.Plain s →
    ∀ d : Decision net s, d.digit < Nat.card (Decision net s)
  | .words words false, _, .keepWords => by
    rw [Nat.card_congr (Decision.equivUnit net words), Nat.card_unique, Decision.digit]
    exact Nat.one_pos
  | .words words true, _, d => by
    rw [Nat.card_congr (Decision.equivBool net words), Nat.card_eq_fintype_card, Fintype.card_bool]
    cases d with
    | keepWords => exact Nat.two_pos
    | dropWords => exact Nat.one_lt_two
  | .reference target optional, hs, .keep d => by
    have hd := d.number_lt (hs target optional rfl)
    rw [card_decision_reference (hs target optional rfl), Decision.digit]
    omega
  | .reference target true, hs, .drop => by
    rw [card_decision_reference (hs target true rfl), Decision.digit]
    exact Nat.lt_succ_self _

end

/-! ### Numbers grow along the order -/

mutual

/-- The earlier derivation has the smaller number. -/
theorem Derivation.Before.number_lt {v : Fin n} (hv : ¬ net.Loops v) :
    ∀ {d e : Derivation net v}, d.Before e → d.number < e.number
  | _, _, .sentence (i := i) (j := j) h ds es => by
    have hds := ds.number_lt (not_leads_of_not_loops hv i)
    have hroom : net.offset v i + Nat.card (Decisions net ((net.get v).choices.get i).steps)
        ≤ net.offset v j := by
      rw [← offset_succ]
      exact offset_mono net v h
    rw [Derivation.number, Derivation.number]
    omega
  | _, _, .decisions (i := i) h => by
    have hlt := h.number_lt (not_leads_of_not_loops hv i)
    rw [Derivation.number, Derivation.number]
    omega

theorem Decisions.Before.number_lt : {steps : List (Step n)} → ¬ net.Leads steps →
    ∀ {ds es : Decisions net steps}, ds.Before es → ds.number < es.number
  | s :: steps, hsteps, _, _, .first (d := d) (e := e) h ds es => by
    obtain ⟨hs, hsteps⟩ := not_leads_cons_iff.mp hsteps
    have hlt := h.digit_lt hs
    have hds := ds.number_lt hsteps
    -- the rest does not make up for a smaller first digit
    rw [Decisions.number, Decisions.number]
    calc d.digit * Nat.card (Decisions net steps) + ds.number
        < (d.digit + 1) * Nat.card (Decisions net steps) := by
          rw [Nat.succ_mul]
          omega
      _ ≤ e.digit * Nat.card (Decisions net steps) := Nat.mul_le_mul_right _ hlt
      _ ≤ e.digit * Nat.card (Decisions net steps) + es.number := Nat.le_add_right _ _
  | s :: steps, hsteps, _, _, .rest d h => by
    have hlt := h.number_lt (not_leads_cons_iff.mp hsteps).2
    rw [Decisions.number, Decisions.number]
    omega

theorem Decision.Before.digit_lt : {s : Step n} → net.Plain s →
    ∀ {d e : Decision net s}, d.Before e → d.digit < e.digit
  | _, _, _, _, .words => Nat.one_pos
  | .reference target optional, hs, _, _, .expansions h => by
    have hlt := h.number_lt (hs target optional rfl)
    rwa [Decision.digit, Decision.digit]
  | .reference target _, hs, _, _, .reference d => by
    have hlt := d.number_lt (hs target true rfl)
    rwa [Decision.digit, Decision.digit]

end

/-! ### All derivations in order -/

/-- No derivation comes before itself. -/
theorem Derivation.not_before_self (hv : ¬ net.Loops v) (d : Derivation net v) : ¬ d.Before d :=
  fun h => Nat.lt_irrefl _ (h.number_lt hv)

theorem Derivation.number_injective (hv : ¬ net.Loops v) :
    Function.Injective (Derivation.number : Derivation net v → Nat) := by
  intro d e heq
  rcases d.before_trichotomy e with h | h | h
  · exact absurd heq (h.number_lt hv).ne
  · exact h
  · exact absurd heq (h.number_lt hv).ne'

/-- **Every number is that of a derivation.** -/
theorem exists_number_eq (hv : ¬ net.Loops v) {k : Nat} (hk : k < Nat.card (Derivation net v)) :
    ∃ d : Derivation net v, d.number = k := by
  have := finite_of_not_loops hv
  -- numbers are different and there are as many as derivations, so none is left over
  let f (d : Derivation net v) : Fin (Nat.card (Derivation net v)) := ⟨d.number, d.number_lt hv⟩
  have hinj : Function.Injective f := fun d e h =>
    Derivation.number_injective hv (Fin.ext_iff.mp h)
  have hbij : Function.Bijective f := by
    refine (Nat.bijective_iff_injective_and_card f).mpr ⟨hinj, ?_⟩
    rw [Nat.card_fin]
  obtain ⟨d, hd⟩ := hbij.surjective ⟨k, hk⟩
  exact ⟨d, Fin.ext_iff.mp hd⟩

/-- **All derivations in order**, each at the place of its number. -/
theorem exists_derivations_in_order (hv : ¬ net.Loops v) :
    ∃ ds : Fin (Nat.card (Derivation net v)) → Derivation net v,
      (∀ k, (ds k).number = k) ∧ (∀ d, ∃ k, ds k = d) ∧ (List.ofFn ds).Pairwise Derivation.Before := by
  choose ds hds using fun k : Fin (Nat.card (Derivation net v)) => exists_number_eq hv k.isLt
  refine ⟨ds, hds, fun d => ?_, ?_⟩
  · exact ⟨⟨d.number, d.number_lt hv⟩, Derivation.number_injective hv (hds _)⟩
  · rw [List.pairwise_ofFn]
    intro k l hkl
    -- the order of numbers is that of derivations, since one of two is earlier
    have hlt : (ds k).number < (ds l).number := by rwa [hds, hds]
    rcases (ds k).before_trichotomy (ds l) with h | h | h
    · exact h
    · exact absurd (congrArg _ h) hlt.ne
    · exact absurd (h.number_lt hv) hlt.not_gt

end IntentGrammar
