import IntentGrammar.Graph.Nesting
import IntentGrammar.Proofs.References

/-!
# The search for nested slots

The search refuses exactly the networks in which a slot is reached from a slot by one or more
references, and it reports such a pair (`nestedSlots?_eq_none_iff`, `nests_of_nestedSlots?`).

The marks of the search from one slot are *closed*: a marked definition is no slot, and what it
refers to is marked or still pending.  When nothing is pending any more, marked definitions refer
to marked ones only, so no slot is reached from them.
-/

namespace IntentGrammar

open Relation

namespace Network

variable {n : Nat} (net : Network n) {seen : Vector Bool n} {pending : List (Fin n)} {v w : Fin n}

/-- The definition is a slot. -/
def IsSlot (v : Fin n) : Prop := (net.get v).key.kind = .slot

/-- The slot `w` is reached from the slot `v`. -/
def Nests (v w : Fin n) : Prop := net.IsSlot v ∧ net.IsSlot w ∧ TransGen net.Refers v w

/-- Marked definitions are no slots, and what they refer to is marked or pending. -/
def Closed (seen : Vector Bool n) (pending : List (Fin n)) : Prop :=
  ∀ v, seen.get v = true →
    ¬ net.IsSlot v ∧ ∀ w, net.Refers v w → seen.get w = true ∨ w ∈ pending

variable {net}

/-! ### Marks -/

theorem get_mark {x : Fin n} : (seen.set v true v.isLt).get x = true ↔ x = v ∨ seen.get x = true := by
  rw [get_set]
  split
  · next h => simp [h]
  · next h => simp [h]

theorem Closed.skip (h : net.Closed seen (v :: pending)) (hv : seen.get v = true) :
    net.Closed seen pending := by
  intro x hx
  refine ⟨(h x hx).1, fun w hw => ?_⟩
  rcases (h x hx).2 w hw with hseen | hpending
  · exact .inl hseen
  · rcases List.mem_cons.mp hpending with rfl | hpending
    · exact .inl hv
    · exact .inr hpending

theorem Closed.mark (h : net.Closed seen (v :: pending)) (hv : ¬ net.IsSlot v) :
    net.Closed (seen.set v true v.isLt) ((net.get v).targets.reverse ++ pending) := by
  intro x hx
  rcases get_mark.mp hx with rfl | hx
  · refine ⟨hv, fun w hw => .inr (List.mem_append_left _ ?_)⟩
    exact List.mem_reverse.mpr (mem_targets_iff.mpr hw)
  · refine ⟨(h x hx).1, fun w hw => ?_⟩
    rcases (h x hx).2 w hw with hseen | hpending
    · exact .inl (get_mark.mpr (.inr hseen))
    · rcases List.mem_cons.mp hpending with rfl | hpending
      · exact .inl (get_mark.mpr (.inl rfl))
      · exact .inr (List.mem_append_right _ hpending)

/-! ### The search from one slot -/

/-- What is found is a slot, reached from something that was pending. -/
theorem reaches_of_slotWithin? (h : net.slotWithin? seen pending = some w) :
    net.IsSlot w ∧ ∃ v ∈ pending, net.Reaches v w := by
  induction seen, pending using Network.slotWithin?.induct net with
  | case1 seen =>
    rw [slotWithin?] at h
    cases h
  | case2 seen v rest hseen ih =>
    rw [slotWithin?, dif_pos hseen] at h
    obtain ⟨hslot, x, hx, hreach⟩ := ih h
    exact ⟨hslot, x, List.mem_cons_of_mem v hx, hreach⟩
  | case3 seen v rest hseen hslot =>
    rw [slotWithin?, dif_neg hseen, if_pos hslot] at h
    obtain rfl : v = w := Option.some.inj h
    exact ⟨hslot, v, List.mem_cons_self, ReflTransGen.refl⟩
  | case4 seen v rest hseen hslot ih =>
    rw [slotWithin?, dif_neg hseen, if_neg hslot] at h
    obtain ⟨hw, x, hx, hreach⟩ := ih h
    refine ⟨hw, ?_⟩
    rcases List.mem_append.mp hx with hx | hx
    · have hvx := mem_targets_iff.mp (List.mem_reverse.mp hx)
      exact ⟨v, List.mem_cons_self, ReflTransGen.head hvx hreach⟩
    · exact ⟨x, List.mem_cons_of_mem v hx, hreach⟩

/-- If nothing is found, no slot is reached from what was marked or pending. -/
theorem not_isSlot_of_slotWithin? (h : net.slotWithin? seen pending = none)
    (hclosed : net.Closed seen pending) (hv : seen.get v = true ∨ v ∈ pending)
    (hreach : net.Reaches v w) : ¬ net.IsSlot w := by
  induction seen, pending using Network.slotWithin?.induct net with
  | case1 seen =>
    -- nothing is pending, so references lead from marked definitions to marked ones only
    have hall : seen.get w = true := by
      induction hreach with
      | refl => exact hv.resolve_right List.not_mem_nil
      | tail _ hstep ih =>
        exact ((hclosed _ ih).2 _ hstep).resolve_right List.not_mem_nil
    exact (hclosed w hall).1
  | case2 seen x rest hseen ih =>
    rw [slotWithin?, dif_pos hseen] at h
    refine ih h (hclosed.skip hseen) ?_
    rcases hv with hv | hv
    · exact .inl hv
    · rcases List.mem_cons.mp hv with rfl | hv
      · exact .inl hseen
      · exact .inr hv
  | case3 seen x rest hseen hslot =>
    rw [slotWithin?, dif_neg hseen, if_pos hslot] at h
    cases h
  | case4 seen x rest hseen hslot ih =>
    rw [slotWithin?, dif_neg hseen, if_neg hslot] at h
    refine ih h (hclosed.mark hslot) ?_
    rcases hv with hv | hv
    · exact .inl (get_mark.mpr (.inr hv))
    · rcases List.mem_cons.mp hv with rfl | hv
      · exact .inl (get_mark.mpr (.inl rfl))
      · exact .inr (List.mem_append_right _ hv)

/-- From the targets of `v` on, the search misses no slot. -/
theorem slotWithin?_targets_eq_none_iff :
    net.slotWithin? (Vector.replicate n false) (net.get v).targets.reverse = none ↔
      ∀ w, TransGen net.Refers v w → ¬ net.IsSlot w := by
  constructor
  · intro h w hw
    obtain ⟨x, hx, hreach⟩ := TransGen.head'_iff.mp hw
    refine not_isSlot_of_slotWithin? h ?_ (.inr ?_) hreach
    · intro y hy
      rw [get_replicate] at hy
      cases hy
    · exact List.mem_reverse.mpr (mem_targets_iff.mpr hx)
  · intro h
    rcases hs : net.slotWithin? (Vector.replicate n false) (net.get v).targets.reverse with _ | w
    · rfl
    · obtain ⟨hslot, x, hx, hreach⟩ := reaches_of_slotWithin? hs
      have hvx := mem_targets_iff.mp (List.mem_reverse.mp hx)
      exact absurd hslot (h w (TransGen.head' hvx hreach))

/-! ### What the search decides -/

/-- What is reported is a slot within a slot. -/
theorem nests_of_nestedSlots? (h : net.nestedSlots? = some (v, w)) : net.Nests v w := by
  obtain ⟨x, -, hx⟩ := List.exists_of_findSome?_eq_some h
  split at hx
  · next hslot =>
    obtain ⟨y, hy, hpair⟩ := Option.map_eq_some_iff.mp hx
    cases hpair
    obtain ⟨hw, u, hu, hreach⟩ := reaches_of_slotWithin? hy
    have hvu := mem_targets_iff.mp (List.mem_reverse.mp hu)
    exact ⟨hslot, hw, TransGen.head' hvu hreach⟩
  · cases hx

/-- What is reported is the first slot from which a slot is reached. -/
theorem not_nests_of_lt (h : net.nestedSlots? = some (v, w)) {u : Fin n} (hu : u < v)
    (x : Fin n) : ¬ net.Nests u x := by
  rintro ⟨hslot, hx, hreach⟩
  obtain ⟨before, v', after, hsplit, hv', hnone⟩ := List.findSome?_eq_some_iff.mp h
  obtain rfl : v' = v := by
    split at hv'
    · obtain ⟨y, -, hpair⟩ := Option.map_eq_some_iff.mp hv'
      exact congrArg Prod.fst hpair
    · cases hv'
  -- the definitions come in order, so `u` has been searched before
  have hmem : u ∈ before := by
    have horder := List.pairwise_lt_finRange n
    have hall := List.mem_finRange u
    rw [hsplit] at horder hall
    rcases List.mem_append.mp hall with hall | hall
    · exact hall
    · rcases List.mem_cons.mp hall with rfl | hall
      · exact absurd hu (lt_irrefl _)
      · have hbehind := (List.pairwise_cons.mp (List.pairwise_append.mp horder).2.1).1 u hall
        exact absurd hu hbehind.asymm
  have hsearch := hnone u hmem
  have hslot' : (net.get u).key.kind = .slot := hslot
  rw [if_pos hslot', Option.map_eq_none_iff] at hsearch
  exact slotWithin?_targets_eq_none_iff.mp hsearch x hreach hx

/-- Nothing is reported exactly if no slot is reached from a slot. -/
theorem nestedSlots?_eq_none_iff : net.nestedSlots? = none ↔ ∀ v w, ¬ net.Nests v w := by
  rw [nestedSlots?, List.findSome?_eq_none_iff]
  constructor
  · rintro h v w ⟨hv, hw, hreach⟩
    have hnone := h v (List.mem_finRange v)
    have hslot : (net.get v).key.kind = .slot := hv
    rw [if_pos hslot, Option.map_eq_none_iff] at hnone
    exact slotWithin?_targets_eq_none_iff.mp hnone w hreach hw
  · intro h v _
    split
    · next hslot =>
      rw [Option.map_eq_none_iff]
      exact slotWithin?_targets_eq_none_iff.mpr fun w hw hslot' => h v w ⟨hslot, hslot', hw⟩
    · rfl

end Network

end IntentGrammar
