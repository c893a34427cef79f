import IntentGrammar.Graph.Cycle
import IntentGrammar.Proofs.References

/-!
# The search for circles

The search refuses exactly the networks in which required references lead round in a circle, and
what it reports is such a circle (`circle?_eq_none_iff`, `isCircle_of_circle?`).

A definition is marked as done when all that it requires has been marked.  So what is marked is
*settled*: required references do not lead on from it for ever.  That is the invariant of the
search; it speaks neither of the path nor of the roots, and once every definition is marked it
leaves no room for a circle.  The path is needed for the converse only: it is a trail of required
references without repetitions, so a target that is found on it closes a circle, and it is never
longer than there are definitions.
-/

namespace IntentGrammar

open Relation

namespace Network

variable {n : Nat} (net : Network n)

/-- A list of definitions that goes round along required references: the last is the first again,
and no other is repeated. -/
structure IsCircle (circle : List (Fin n)) : Prop where
  chain : circle.IsChain net.Requires
  closed : ∃ v rest, circle = v :: rest ++ [v]
  nodup : circle.dropLast.Nodup

/-- A list of definitions, each one required by the one behind it, and none repeated. -/
structure Trail (path : List (Fin n)) : Prop where
  chain : path.IsChain fun a b => net.Requires b a
  nodup : path.Nodup

/-- Required references do not lead on from marked definitions for ever. -/
def Settled (done : Vector Bool n) : Prop :=
  ∀ v, done.get v = true → Acc (fun a b => net.Requires b a) v

/-- What a search from the definitions `vs` may end in: a circle, or more marks, with `vs` among
what is marked. -/
def Outcome (done : Vector Bool n) (vs : List (Fin n)) :
    Except (List (Fin n)) (Vector Bool n) → Prop
  | .error circle => net.IsCircle circle
  | .ok done' =>
    net.Settled done' ∧ (∀ v, done.get v = true → done'.get v = true) ∧
      ∀ v ∈ vs, done'.get v = true

variable {net}

/-! ### Circles and trails -/

theorem IsCircle.transGen {circle : List (Fin n)} (h : net.IsCircle circle) :
    ∃ v, TransGen net.Requires v v := by
  obtain ⟨v, rest, rfl⟩ := h.closed
  have hchain := h.chain
  rcases rest with _ | ⟨w, rest⟩
  · exact ⟨v, TransGen.single (by simpa using hchain)⟩
  · have hpair : (v :: w :: rest ++ [v]).Pairwise (TransGen net.Requires) :=
      List.isChain_iff_pairwise.mp (hchain.imp fun _ _ => TransGen.single)
    exact ⟨v, (List.pairwise_cons.mp hpair).1 v (by simp)⟩

/-- The part of a path that is closed to a circle goes on to the end of the path. -/
theorem exists_append_of_mem {path : List (Fin n)} {target : Fin n} (h : target ∈ path) :
    ∃ before, path = path.takeWhile (· ≠ target) ++ target :: before := by
  induction path with
  | nil => exact absurd h List.not_mem_nil
  | cons x path ih =>
    by_cases hx : x = target
    · exact ⟨path, by simp [hx]⟩
    · obtain ⟨before, hpath⟩ := ih ((List.mem_cons.mp h).resolve_left (Ne.symm hx))
      refine ⟨before, ?_⟩
      rw [List.takeWhile_cons_of_pos (by simpa using hx), List.cons_append, ← hpath]

/-- A required target that is on the path closes a circle. -/
theorem Trail.isCircle_closeCircle {path : List (Fin n)} {v target : Fin n}
    (h : net.Trail (v :: path)) (hreq : net.Requires v target) (hmem : target ∈ v :: path) :
    net.IsCircle (closeCircle (v :: path) target) := by
  obtain ⟨before, hpath⟩ := exists_append_of_mem hmem
  set front := (v :: path).takeWhile (· ≠ target) with hfront
  have happ : v :: path = (front ++ [target]) ++ before := by rw [hpath]; simp
  have hchain : (front ++ [target]).IsChain fun a b => net.Requires b a :=
    List.IsChain.left_of_append (happ ▸ h.chain)
  have hnodup : (front ++ [target]).Nodup := (happ ▸ h.nodup).of_append_left
  have hlast : ∀ x ∈ (front ++ [target]).head?, net.Requires x target := by
    -- the trail starts at `v`, and so does its part up to the target
    intro x hx
    have hxv : (v :: path).head? = some x := by
      rw [happ, List.head?_append, Option.mem_def.mp hx]
      rfl
    obtain rfl : v = x := by simpa using hxv
    exact hreq
  have hclose : closeCircle (v :: path) target = (front ++ [target]).reverse ++ [target] := rfl
  refine ⟨?_, ⟨target, front.reverse, ?_⟩, ?_⟩
  · rw [hclose]
    refine List.IsChain.append (List.isChain_reverse.mpr hchain) (List.isChain_singleton _) ?_
    intro x hx y hy
    rw [List.getLast?_reverse] at hx
    obtain rfl : target = y := by simpa using hy
    exact hlast x hx
  · rw [hclose, List.reverse_append]
    rfl
  · rw [hclose, List.dropLast_concat]
    exact List.nodup_reverse.mpr hnodup

/-! ### The search -/

theorem Settled.set {done : Vector Bool n} (h : net.Settled done) {v : Fin n}
    (hv : ∀ w, net.Requires v w → done.get w = true) : net.Settled (done.set v true v.isLt) := by
  intro w hw
  rw [get_set] at hw
  split at hw
  · next heq =>
    subst heq
    exact Acc.intro w fun x hx => h x (hv x hx)
  · exact h w hw

/-- Marks stay when a definition is marked. -/
theorem get_set_of_get {done : Vector Bool n} {v w : Fin n} (h : done.get w = true) :
    (done.set v true v.isLt).get w = true := by
  rw [get_set]
  split
  · rfl
  · exact h

/-- A search from several definitions, one after the other, is made of searches from each. -/
theorem outcome_foldlM
    {search : Vector Bool n → Fin n → Except (List (Fin n)) (Vector Bool n)} {vs : List (Fin n)}
    (h : ∀ done, ∀ v ∈ vs, net.Settled done → net.Outcome done [v] (search done v))
    {done : Vector Bool n} (hdone : net.Settled done) :
    net.Outcome done vs (vs.foldlM search done) := by
  induction vs generalizing done with
  | nil => exact ⟨hdone, fun _ h => h, fun _ h => absurd h List.not_mem_nil⟩
  | cons v vs ih =>
    rw [List.foldlM_cons]
    have hv := h done v List.mem_cons_self hdone
    rcases hs : search done v with circle | done₁
    · rw [hs] at hv
      exact hv
    · rw [hs] at hv
      obtain ⟨hset₁, hmono₁, hmark₁⟩ := hv
      have hvs := ih (fun d w hw => h d w (List.mem_cons_of_mem v hw)) hset₁
      show net.Outcome done (v :: vs) (vs.foldlM search done₁)
      rcases hr : vs.foldlM search done₁ with circle | done₂
      · rw [hr] at hvs
        exact hvs
      · rw [hr] at hvs
        obtain ⟨hset₂, hmono₂, hmark₂⟩ := hvs
        refine ⟨hset₂, fun w hw => hmono₂ w (hmono₁ w hw), fun w hw => ?_⟩
        rcases List.mem_cons.mp hw with rfl | hw
        · exact hmono₂ w (hmark₁ w List.mem_cons_self)
        · exact hmark₂ w hw

/-- A search behind a trail.  The path and the levels left make up the number of definitions, so
the search never stops for lack of levels. -/
theorem outcome_follow {fuel : Nat} {path : List (Fin n)} {done : Vector Bool n} {v : Fin n}
    (htrail : net.Trail (v :: path)) (hfuel : n ≤ path.length + fuel) (hdone : net.Settled done) :
    net.Outcome done [v] (net.follow fuel path done v) := by
  induction fuel generalizing path done v with
  | zero =>
    -- a trail is no longer than there are definitions
    have hlen := htrail.nodup.length_le_card
    rw [Fintype.card_fin, List.length_cons] at hlen
    omega
  | succ fuel ih =>
    rw [Network.follow]
    set visit : Vector Bool n → Fin n → Except (List (Fin n)) (Vector Bool n) :=
      fun done target =>
        if target ∈ v :: path then .error (closeCircle (v :: path) target)
        else if done.get target then .ok done
        else net.follow fuel (v :: path) done target with hvisit
    have htargets : net.Outcome done (net.get v).required
        ((net.get v).required.foldlM visit done) := by
      refine outcome_foldlM (fun d w hw hd => ?_) hdone
      have hreq := mem_required_iff.mp hw
      rw [hvisit]
      dsimp only
      split
      · next hmem => exact htrail.isCircle_closeCircle hreq hmem
      · next hmem =>
        split
        · next hget =>
          exact ⟨hd, fun _ h => h, fun x hx => by rwa [List.mem_singleton.mp hx]⟩
        · have htrail' : net.Trail (w :: v :: path) :=
            ⟨List.IsChain.cons_cons hreq htrail.chain, List.nodup_cons.mpr ⟨hmem, htrail.nodup⟩⟩
          refine ih htrail' ?_ hd
          rw [List.length_cons]
          omega
    rcases hs : (net.get v).required.foldlM visit done with circle | done'
    · rw [hs] at htargets
      exact htargets
    · rw [hs] at htargets
      -- all that `v` requires is marked now, so `v` can be marked
      obtain ⟨hset, hmono, hmark⟩ := htargets
      refine ⟨hset.set fun w hw => hmark w (mem_required_iff.mpr hw),
        fun w hw => get_set_of_get (hmono w hw), fun w hw => ?_⟩
      rw [List.mem_singleton.mp hw, get_set, if_pos rfl]

theorem outcome_searchCircle (net : Network n) :
    net.Outcome (Vector.replicate n false) (List.finRange n) net.searchCircle := by
  refine outcome_foldlM (fun done v _ hdone => ?_) fun v hv => ?_
  · split
    · next hget => exact ⟨hdone, fun _ h => h, fun x hx => by rwa [List.mem_singleton.mp hx]⟩
    · exact outcome_follow ⟨List.isChain_singleton _, List.nodup_singleton _⟩ (by simp) hdone
  · rw [get_replicate] at hv
    cases hv

/-! ### What the search decides -/

/-- What is reported is a circle. -/
theorem isCircle_of_circle? {circle : List (Fin n)} (h : net.circle? = some circle) :
    net.IsCircle circle := by
  have hout := outcome_searchCircle net
  rw [circle?] at h
  rcases hs : net.searchCircle with c | done
  · rw [hs] at h hout
    cases h
    exact hout
  · rw [hs] at h
    cases h

/-- Nothing is reported exactly if required references nowhere lead round in a circle. -/
theorem circle?_eq_none_iff : net.circle? = none ↔ ∀ v, ¬ TransGen net.Requires v v := by
  constructor
  · intro h
    have hout := outcome_searchCircle net
    rw [circle?] at h
    rcases hs : net.searchCircle with c | done
    · rw [hs] at h
      cases h
    · rw [hs] at hout
      -- everything is marked, so required references lead on for ever from nowhere
      obtain ⟨hset, -, hmark⟩ := hout
      have hwf : WellFounded fun a b => net.Requires b a :=
        ⟨fun v => hset v (hmark v (List.mem_finRange v))⟩
      intro v hv
      exact hwf.transGen.irrefl.irrefl v (transGen_swap.mp hv)
  · intro h
    rcases hc : net.circle? with _ | circle
    · rfl
    · obtain ⟨v, hv⟩ := (isCircle_of_circle? hc).transGen
      exact absurd hv (h v)

end Network

end IntentGrammar
