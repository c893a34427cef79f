import IntentGrammar.Graph.Basic
import Mathlib

/-!
# References between definitions

What the searches through a network are about, said without them: which definition refers to
which, whether the reference can be left out, and what is reached along references.

* `Refers`, `Requires`, `Offers`: one reference, of any kind, one that stays, one that may be left
  out;
* `Reaches`: any number of references, none included;
* `Loops`: some circle of references is reached.

Where no circle is reached, following references comes to an end.  `descent R a` counts what is
still ahead of `a`, so it falls along `R` and stays below the number of elements; it is the measure
of every recursion along references.
-/

namespace IntentGrammar

open Relation

/-! ### Descending along a relation -/

section Descent

variable {α : Type*} {R : α → α → Prop}

/-- The number of elements that one or more steps of `R` lead to from `a`. -/
noncomputable def descent (R : α → α → Prop) (a : α) : Nat :=
  {b | TransGen R a b}.ncard

/-- A step falls, unless it leads into a circle. -/
theorem descent_lt_of_rel [Finite α] {a b : α} (h : R a b) (hb : ¬ TransGen R b b) :
    descent R b < descent R a := by
  apply Set.ncard_lt_ncard _ (Set.toFinite _)
  refine ⟨fun c hc => TransGen.head h hc, fun hsub => hb ?_⟩
  exact hsub (TransGen.single h : b ∈ {c | TransGen R a c})

/-- An element that is on no circle does not lead to all elements. -/
theorem descent_lt_card [Finite α] {a : α} (ha : ¬ TransGen R a a) : descent R a < Nat.card α := by
  rw [← Set.ncard_univ]
  apply Set.ncard_lt_ncard _ (Set.toFinite _)
  exact ⟨Set.subset_univ _, fun hsub => ha (hsub (Set.mem_univ a))⟩

end Descent

/-! ### A value for each definition -/

theorem get_set {α : Type*} {n : Nat} (xs : Vector α n) (v w : Fin n) (x : α) :
    (xs.set v x v.isLt).get w = if w = v then x else xs.get w := by
  rw [Vector.get_eq_getElem, Vector.get_eq_getElem, Vector.getElem_set]
  simp only [Fin.ext_iff, eq_comm]

theorem get_replicate {α : Type*} {n : Nat} (x : α) (v : Fin n) :
    (Vector.replicate n x).get v = x := by
  rw [Vector.get_eq_getElem, Vector.getElem_replicate]

theorem mem_toList_get {α : Type*} {n : Nat} (xs : Vector α n) (i : Fin n) : xs.get i ∈ xs.toList := by
  rw [Vector.mem_toList_iff, Vector.get_eq_getElem]
  exact Vector.getElem_mem _

theorem exists_get_of_mem_toList {α : Type*} {n : Nat} {xs : Vector α n} {x : α} (h : x ∈ xs.toList) :
    ∃ i, xs.get i = x := by
  obtain ⟨i, hi, rfl⟩ := Vector.getElem_of_mem (Vector.mem_toList_iff.mp h)
  exact ⟨⟨i, hi⟩, rfl⟩

namespace Network

variable {n : Nat} (net : Network n) {v w : Fin n}

/-! ### One reference -/

/-- A sentence of `v` refers to `w`. -/
def Refers (v w : Fin n) : Prop :=
  ∃ c ∈ (net.get v).choices, ∃ optional, Step.reference w optional ∈ c.steps

/-- A sentence of `v` has a reference to `w` that cannot be left out. -/
def Requires (v w : Fin n) : Prop :=
  ∃ c ∈ (net.get v).choices, Step.reference w false ∈ c.steps

/-- A sentence of `v` has a reference to `w` that may be left out. -/
def Offers (v w : Fin n) : Prop :=
  ∃ c ∈ (net.get v).choices, Step.reference w true ∈ c.steps

variable {net}

theorem Requires.refers (h : net.Requires v w) : net.Refers v w := by
  obtain ⟨c, hc, hs⟩ := h
  exact ⟨c, hc, false, hs⟩

theorem Offers.refers (h : net.Offers v w) : net.Refers v w := by
  obtain ⟨c, hc, hs⟩ := h
  exact ⟨c, hc, true, hs⟩

theorem refers_iff_requires_or_offers : net.Refers v w ↔ net.Requires v w ∨ net.Offers v w := by
  constructor
  · rintro ⟨c, hc, optional, hs⟩
    cases optional with
    | false => exact .inl ⟨c, hc, hs⟩
    | true => exact .inr ⟨c, hc, hs⟩
  · rintro (h | h)
    · exact h.refers
    · exact h.refers

theorem mem_links_iff {optional : Bool} :
    (w, optional) ∈ (net.get v).links ↔
      ∃ c ∈ (net.get v).choices, Step.reference w optional ∈ c.steps := by
  rw [Node.links, List.mem_flatMap]
  refine exists_congr fun c => and_congr_right fun _ => ?_
  rw [List.mem_filterMap]
  constructor
  · rintro ⟨s, hs, hlink⟩
    cases s with
    | words _ _ => cases hlink
    | reference target o =>
      cases hlink
      exact hs
  · intro hs
    exact ⟨_, hs, rfl⟩

theorem mem_targets_iff : w ∈ (net.get v).targets ↔ net.Refers v w := by
  rw [Node.targets, List.mem_map]
  constructor
  · rintro ⟨⟨_, optional⟩, hlink, rfl⟩
    obtain ⟨c, hc, hs⟩ := mem_links_iff.mp hlink
    exact ⟨c, hc, optional, hs⟩
  · rintro ⟨c, hc, optional, hs⟩
    exact ⟨(w, optional), mem_links_iff.mpr ⟨c, hc, hs⟩, rfl⟩

theorem mem_required_iff : w ∈ (net.get v).required ↔ net.Requires v w := by
  rw [Node.required, List.mem_map]
  constructor
  · rintro ⟨⟨_, optional⟩, hlink, rfl⟩
    obtain ⟨hlink, ho⟩ := List.mem_filter.mp hlink
    obtain rfl : optional = false := by simpa using ho
    exact mem_links_iff.mp hlink
  · intro h
    exact ⟨(w, false), List.mem_filter.mpr ⟨mem_links_iff.mpr h, rfl⟩, rfl⟩

/-! ### Many references -/

variable (net)

/-- References lead from `v` to `w`, in no, one or more steps. -/
def Reaches : Fin n → Fin n → Prop := ReflTransGen net.Refers

/-- References lead from `v` to a circle of references. -/
def Loops (v : Fin n) : Prop := ∃ w, net.Reaches v w ∧ TransGen net.Refers w w

variable {net}

theorem Loops.of_reaches (h : net.Reaches v w) (hw : net.Loops w) : net.Loops v := by
  obtain ⟨x, hx, hcircle⟩ := hw
  exact ⟨x, ReflTransGen.trans h hx, hcircle⟩

theorem loops_of_circle (h : TransGen net.Refers v v) : net.Loops v :=
  ⟨v, ReflTransGen.refl, h⟩

/-- A circle that is reached is reached by way of some target. -/
theorem loops_iff_exists_refers : net.Loops v ↔ ∃ w, net.Refers v w ∧ net.Loops w := by
  constructor
  · rintro ⟨x, hx, hcircle⟩
    rcases ReflTransGen.cases_head hx with rfl | ⟨w, hw, hwx⟩
    · -- `v` itself is on the circle, and so is the next definition on it
      obtain ⟨w, hw, hwv⟩ := TransGen.head'_iff.mp hcircle
      exact ⟨w, hw, v, hwv, hcircle⟩
    · exact ⟨w, hw, x, hwx, hcircle⟩
  · rintro ⟨w, hw, hloops⟩
    exact hloops.of_reaches (ReflTransGen.single hw)

theorem not_loops_of_refers (hv : ¬ net.Loops v) (h : net.Refers v w) : ¬ net.Loops w :=
  fun hw => hv (hw.of_reaches (ReflTransGen.single h))

/-- Where no circle is reached, the targets of references have less ahead of them. -/
theorem descent_lt_of_refers (hv : ¬ net.Loops v) (h : net.Refers v w) :
    descent net.Refers w < descent net.Refers v :=
  descent_lt_of_rel h fun hw => not_loops_of_refers hv h (loops_of_circle hw)

/-- Where no circle is reached, there is less ahead than there are definitions. -/
theorem descent_lt_of_not_loops (hv : ¬ net.Loops v) : descent net.Refers v < n := by
  have h := descent_lt_card (R := net.Refers) fun h => hv (loops_of_circle h)
  rwa [Nat.card_fin] at h

/-- A circle of references is a circle of required ones, or has one on it that may be left out. -/
theorem circle_requires_or_offers (h : TransGen net.Refers v v) :
    TransGen net.Requires v v ∨
      ∃ a b, net.Reaches v a ∧ net.Offers a b ∧ net.Reaches b v := by
  by_contra hnot
  obtain ⟨hreq, hoff⟩ := not_or.mp hnot
  -- every reference on the way has to be a required one
  have aux : ∀ x, net.Reaches v x → net.Reaches x v → ReflTransGen net.Requires v x := by
    intro x hx
    induction hx with
    | refl => exact fun _ => ReflTransGen.refl
    | tail hvy hyz ih =>
      intro hzv
      have hyv := ReflTransGen.head hyz hzv
      rcases refers_iff_requires_or_offers.mp hyz with h' | h'
      · exact (ih hyv).tail h'
      · exact absurd ⟨_, _, hvy, h', hzv⟩ hoff
  obtain ⟨x, hvx, hxv⟩ := TransGen.tail'_iff.mp h
  rcases refers_iff_requires_or_offers.mp hxv with h' | h'
  · exact hreq (TransGen.tail' (aux x hvx (ReflTransGen.single hxv)) h')
  · exact hoff ⟨x, v, hvx, h', ReflTransGen.refl⟩

end Network

end IntentGrammar
