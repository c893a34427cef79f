import IntentGrammar.Proofs.Acceptance

/-!
# What the counts of a graph say

The counts kept in a graph, of its definitions and of each of their sentences, are unbounded exactly
where a circle of references is reached, and that is where there are infinitely many derivations.
All others are the numbers of derivations, which are never zero, up to the largest number that is
counted.

In a graph no circle is made of required references alone, so a circle that is reached always has a
reference on it that may be left out.

`Cardinality.Describes` is what one count says.  The counts are the same whatever the order in which
definitions are visited, since in every order they are what `Network.tally` says they should be.
-/

namespace IntentGrammar

open Relation

variable {n : Nat} {net : Network n} {v : Fin n} {steps : List (Step n)}

/-- References lead from `v` to a circle of references, one of which may be left out. -/
def Network.Circles (net : Network n) (v : Fin n) : Prop :=
  ∃ a b, net.Reaches v a ∧ net.Offers a b ∧ net.Reaches b a

/-- Without circles of required references every circle has a reference that may be left out. -/
theorem loops_iff_circles (hcircles : ∀ v, ¬ TransGen net.Requires v v) :
    net.Loops v ↔ net.Circles v := by
  constructor
  · rintro ⟨w, hvw, hw⟩
    rcases Network.circle_requires_or_offers hw with h | ⟨a, b, hwa, hab, hbw⟩
    · exact absurd h (hcircles w)
    · exact ⟨a, b, hvw.trans hwa, hab, hbw.trans hwa⟩
  · rintro ⟨a, b, hva, hab, hba⟩
    exact ⟨a, hva, TransGen.head' hab.refers hba⟩

/-- What a count says about the members of a type, where infinitely many come from a circle. -/
structure Cardinality.Describes (count : Cardinality) (circle : Prop) (α : Type) : Prop where
  circle : count = .unbounded ↔ circle
  infinite : count = .unbounded ↔ Infinite α
  exact : count ≠ .unbounded →
    1 ≤ Nat.card α ∧ count = .finite (min (Nat.card α) (2 ^ 128 - 1))

/-! ### Definitions and sentences -/

/-- The count of a definition, as it should be. -/
theorem describes_expansions (hne : ∀ v, Nonempty (Derivation net v))
    (hcircles : ∀ v, ¬ TransGen net.Requires v v) (v : Fin n) :
    (net.expansions v).Describes (net.Circles v) (Derivation net v) where
  circle := expansions_eq_unbounded_iff.trans (loops_iff_circles hcircles)
  infinite := expansions_eq_unbounded_iff.trans (infinite_iff_loops hne).symm
  exact hv := by
    rw [Ne, expansions_eq_unbounded_iff] at hv
    have := finite_of_not_loops hv
    have := hne v
    exact ⟨Nat.card_pos, expansions_of_not_loops hv⟩

/-- The count of a sentence, from those of the definitions. -/
theorem describes_count_choice (hne : ∀ v, Nonempty (Derivation net v))
    (hcircles : ∀ v, ¬ TransGen net.Requires v v) (c : Choice n) :
    (c.count net.expansions).Describes
      (∃ target optional, .reference target optional ∈ c.steps ∧ net.Circles target)
      (Decisions net c.steps) where
  circle := by
    rw [count_choice_eq_unbounded_iff]
    simp only [Network.Leads, loops_iff_circles hcircles]
  infinite := count_choice_eq_unbounded_iff.trans (infinite_iff_leads hne).symm
  exact hc := by
    rw [Ne, count_choice_eq_unbounded_iff] at hc
    have := finite_of_not_leads hc
    have : Nonempty (Decisions net c.steps) := nonempty_decisions fun target _ => hne target
    exact ⟨Nat.card_pos, count_choice_expansions hc⟩

/-! ### Graphs -/

namespace Graph.Valid

variable {g : Graph}

theorem count_eq (h : g.Valid) (v : Fin g.size) : g.count v = g.network.expansions v := by
  rw [Graph.count, h.counts]
  rfl

/-- Every definition of a graph has a derivation. -/
theorem nonempty (h : g.Valid) (v : Fin g.size) : Nonempty (Derivation g.network v) :=
  nonempty_derivation h.choices_ne_nil h.circles v

end Graph.Valid

/-- **The counts of a graph** say for every definition and for each of its sentences whether a
circle is reached, whether there are infinitely many derivations, and if not, how many there are.
They do not depend on the order in which the definitions are visited. -/
theorem counts_describe_derivations {grammar : Grammar} {ceiling : Nat} {g : Graph}
    (h : Graph.build grammar ceiling = .ok g) :
    (∀ v, (g.count v).Describes (g.network.Circles v) (Derivation g.network v)) ∧
      (∀ v, List.Forall₂ (fun (c : Choice g.size) (count : Cardinality) => count.Describes
          (∃ target optional, .reference target optional ∈ c.steps ∧ g.network.Circles target)
          (Decisions g.network c.steps))
        (g.node v).choices (g.counts.get v).sentences) ∧
      ∀ order : List (Fin g.size), (∀ v, v ∈ order) → g.network.countsBy order = g.counts := by
  have hvalid := valid_of_build h
  refine ⟨fun v => ?_, fun v => ?_, fun order horder => ?_⟩
  · rw [hvalid.count_eq]
    exact describes_expansions hvalid.nonempty hvalid.circles v
  · rw [hvalid.counts, Network.tally, List.forall₂_map_right_iff]
    exact List.forall₂_same.mpr fun c _ =>
      describes_count_choice hvalid.nonempty hvalid.circles c
  · refine Vector.ext fun i hi => ?_
    have hget := (get_countsBy (horder ⟨i, hi⟩)).trans (hvalid.counts ⟨i, hi⟩).symm
    exact hget

/-- There are three ways to order a drink, and infinitely many ways to ask for it soon. -/
theorem card_drinks : Nat.card (Derivation Network.drinks 0) = 3 ∧
    Infinite (Derivation Network.drinks 3) ∧ Network.drinks.Circles 3 := by
  obtain ⟨hcount, -, -⟩ := counts_describe_derivations build_drinks
  have hsoon : (Network.drinks.counts.get 3).total = .unbounded := by decide +kernel
  have hfinite : Graph.drinks.count (0 : Fin 4) = .finite 3 := by decide +kernel
  obtain ⟨-, heq⟩ := (hcount (0 : Fin 4)).exact (by rw [hfinite]; nofun)
  rw [hfinite, Cardinality.finite.injEq] at heq
  have hcard : 3 = min (Nat.card (Derivation Network.drinks 0)) (2 ^ 128 - 1) := heq
  exact ⟨by omega, (hcount (3 : Fin 4)).infinite.mp hsoon,
    (hcount (3 : Fin 4)).circle.mp hsoon⟩

end IntentGrammar
