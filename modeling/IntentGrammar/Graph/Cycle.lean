import IntentGrammar.Graph.Basic

/-!
# Circles of required references

A definition whose expansion needs an expansion of itself has none.  The search follows the
references that cannot be left out, depth first and in the order of the grammar, and reports the
first circle that it closes.  `path` holds the definitions being followed, the latest first, and
`done` marks those from which no circle can be reached.

A path never visits a definition twice, so it is at most as long as there are definitions.
-/

namespace IntentGrammar

variable {n : Nat}

/-- The part of a path from `target` on, earliest first, closed by `target`. -/
def closeCircle (path : List (Fin n)) (target : Fin n) : List (Fin n) :=
  (path.takeWhile (· ≠ target) ++ [target]).reverse ++ [target]

/-- Follow the required references of `v` behind `path`.  The result is a circle, or the
definitions known to reach none. -/
def Network.follow (net : Network n) (fuel : Nat) (path : List (Fin n)) (done : Vector Bool n)
    (v : Fin n) : Except (List (Fin n)) (Vector Bool n) :=
  match fuel with
  | 0 => .ok done
  | fuel + 1 => do
    let path := v :: path
    let visit (done : Vector Bool n) (target : Fin n) : Except (List (Fin n)) (Vector Bool n) :=
      if target ∈ path then .error (closeCircle path target)
      else if done.get target then .ok done
      else net.follow fuel path done target
    let done ← (net.get v).required.foldlM visit done
    return done.set v true v.isLt

/-- Search from every definition in turn. -/
def Network.searchCircle (net : Network n) : Except (List (Fin n)) (Vector Bool n) :=
  (List.finRange n).foldlM
    (fun done v => if done.get v then .ok done else net.follow n [] done v)
    (Vector.replicate n false)

/-- The first circle of required references, if there is one. -/
def Network.circle? (net : Network n) : Option (List (Fin n)) :=
  match net.searchCircle with
  | .error circle => some circle
  | .ok _ => none

end IntentGrammar
