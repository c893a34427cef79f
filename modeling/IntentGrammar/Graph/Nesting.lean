import IntentGrammar.Graph.Basic

/-!
# Slots within slots

The words of a slot are one value, so no slot may be reached from a slot by references, optional
or not.  The search from a slot keeps the definitions still to look at in `pending`, the one found
last in front, and marks in `seen` those that were looked at.
-/

namespace IntentGrammar

variable {n : Nat}

/-- The number of definitions that are not marked. -/
def unmarked (seen : Vector Bool n) : Nat := seen.count false

theorem unmarked_set_lt {seen : Vector Bool n} {v : Fin n} (h : seen.get v = false) :
    unmarked (seen.set v true v.isLt) < unmarked seen := by
  have hv : seen[v.val] = false := h
  have hpos : 0 < seen.count false := Vector.count_pos_iff.2 (hv ▸ Vector.getElem_mem v.isLt)
  rw [unmarked, unmarked, Vector.count_set, hv, if_pos (beq_self_eq_true false),
    if_neg (Bool.eq_false_iff.1 rfl : ¬(true == false) = true)]
  omega

/-- The first slot met when `pending` is looked through. -/
def Network.slotWithin? (net : Network n) (seen : Vector Bool n) (pending : List (Fin n)) :
    Option (Fin n) :=
  match pending with
  | [] => none
  | v :: rest =>
    if _h : seen.get v = true then net.slotWithin? seen rest
    else if (net.get v).key.kind = .slot then some v
    else net.slotWithin? (seen.set v true v.isLt) ((net.get v).targets.reverse ++ rest)
termination_by (unmarked seen, pending.length)
decreasing_by
  · exact Prod.Lex.right _ (Nat.lt_succ_self _)
  · exact Prod.Lex.left _ _ (unmarked_set_lt (Bool.eq_false_iff.2 _h))

/-- The first slot from which a slot is reached, and the slot reached. -/
def Network.nestedSlots? (net : Network n) : Option (Fin n × Fin n) :=
  (List.finRange n).findSome? fun v =>
    if (net.get v).key.kind = .slot then
      (net.slotWithin? (Vector.replicate n false) (net.get v).targets.reverse).map fun w => (v, w)
    else none

end IntentGrammar
