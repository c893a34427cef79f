import IntentGrammar.Proofs.Counts

/-!
# Counting by visits

Whatever the order in which definitions are visited, every definition visited gets the counts that
satisfy the rule (`get_countsBy`).

A visit may find its definition still being counted.  Then the definitions that are being counted
lead to it and it leads back to itself, so a circle is reached and its count is unbounded, which is
what the visit answers.  This is the only place where the order shows, and the answer does not
depend on it.  All that is left behind is final: the invariant `Progress` knows no other counts
than the right ones.

A visit of a new definition makes it active, so there are always at least as many levels left as
definitions that are new, and a visit never ends for lack of levels.
-/

namespace IntentGrammar

open Relation

variable {n : Nat}

/-! ### Computations that keep a property of the visits -/

/-- From visits with the property `I` the computation returns `a`, and it keeps the property. -/
def Counting.Yields {α : Type} (I : Vector Visit n → Prop) (m : Counting n α) (a : α) : Prop :=
  ∀ visits, I visits → (m.run visits).1 = a ∧ I (m.run visits).2

namespace Counting.Yields

variable {α β : Type} {I : Vector Visit n → Prop}

theorem pure (a : α) : Yields I (Pure.pure a) a := fun _ h => ⟨rfl, h⟩

theorem bind {m : Counting n α} {f : α → Counting n β} {a : α} {b : β} (hm : Yields I m a)
    (hf : Yields I (f a) b) : Yields I (m >>= f) b := by
  intro visits h
  obtain ⟨ha, hI⟩ := hm visits h
  have hb := hf _ hI
  rw [← ha] at hb
  exact hb

theorem foldlM {f : β → α → Counting n β} {g : β → α → β} {xs : List α}
    (h : ∀ b, ∀ x ∈ xs, Yields I (f b x) (g b x)) (b : β) :
    Yields I (xs.foldlM f b) (xs.foldl g b) := by
  induction xs generalizing b with
  | nil => exact pure b
  | cons x xs ih =>
    rw [List.foldlM_cons, List.foldl_cons]
    refine (h b x List.mem_cons_self).bind (ih (fun b y hy => ?_) _)
    exact h b y (List.mem_cons_of_mem x hy)

theorem mapM {f : α → Counting n β} {g : α → β} {xs : List α}
    (h : ∀ x ∈ xs, Yields I (f x) (g x)) : Yields I (xs.mapM f) (xs.map g) := by
  induction xs with
  | nil => exact pure []
  | cons x xs ih =>
    rw [List.mapM_cons, List.map_cons]
    refine (h x List.mem_cons_self).bind (bind (ih fun y hy => ?_) (pure _))
    exact h y (List.mem_cons_of_mem x hy)

end Counting.Yields

open Counting (Yields)

variable {net : Network n} {I : Vector Visit n → Prop} {count : Fin n → Counting n Cardinality}
  {counts : Fin n → Cardinality}

/-- The rule for a step, where targets are counted by computations. -/
theorem yields_step {s : Step n}
    (h : ∀ target optional, s = .reference target optional → Yields I (count target) (counts target)) :
    Yields I (s.countWith count) (s.count counts) := by
  cases s with
  | words words optional => exact Yields.pure _
  | reference target optional => exact (h target optional rfl).bind (Yields.pure _)

/-- The rule for a sentence, where targets are counted by computations. -/
theorem yields_choice {c : Choice n}
    (h : ∀ target optional, Step.reference target optional ∈ c.steps →
      Yields I (count target) (counts target)) :
    Yields I (c.countWith count) (c.count counts) := by
  rw [Choice.count_eq_foldl]
  refine Yields.foldlM (fun total s hs => ?_) _
  exact (yields_step fun target optional heq => h target optional (heq ▸ hs)).bind (Yields.pure _)

/-! ### What a visit does -/

variable {v : Fin n} {fuel : Nat} {visits : Vector Visit n}

theorem run_visit_counted {tally : Tally} (h : visits.get v = .counted tally) :
    (net.visit fuel v).run visits = (tally.total, visits) := by
  rw [Network.visit.eq_def]
  simp only [StateT.run_bind, StateT.run_get, pure_bind, h, StateT.run_pure]
  rfl

theorem run_visit_active (h : visits.get v = .active) :
    (net.visit fuel v).run visits = (.unbounded, visits) := by
  rw [Network.visit.eq_def]
  simp only [StateT.run_bind, StateT.run_get, pure_bind, h, StateT.run_pure]
  rfl

/-- A new definition is active while its sentences are counted, and keeps their counts. -/
theorem run_visit_new {sentences : List Cardinality} {visits' : Vector Visit n}
    (h : visits.get v = .new)
    (hrun : ((net.get v).choices.mapM (Choice.countWith (net.visit fuel))).run
      (visits.set v .active v.isLt) = (sentences, visits')) :
    (net.visit (fuel + 1) v).run visits
      = (Cardinality.sum sentences,
          visits'.set v (.counted ⟨Cardinality.sum sentences, sentences⟩) v.isLt) := by
  have hbody : (net.visit (fuel + 1) v).run visits =
      let r := ((net.get v).choices.mapM (Choice.countWith (net.visit fuel))).run
        (visits.set v .active v.isLt)
      (Cardinality.sum r.1, r.2.set v (.counted ⟨Cardinality.sum r.1, r.1⟩) v.isLt) := by
    rw [Network.visit.eq_def]
    simp only [StateT.run_bind, StateT.run_get, pure_bind, h]
    rfl
  rw [hbody, hrun]

/-- A definition that has been visited is not new any more. -/
theorem visit_ne_new (hfuel : fuel ≠ 0) :
    ((net.visit fuel v).run visits).2.get v ≠ .new := by
  obtain ⟨fuel, rfl⟩ := Nat.exists_eq_succ_of_ne_zero hfuel
  rcases hv : visits.get v with _ | _ | tally
  · rcases hrun : ((net.get v).choices.mapM (Choice.countWith (net.visit fuel))).run
      (visits.set v .active v.isLt) with ⟨sentences, visits'⟩
    rw [Nat.succ_eq_add_one, run_visit_new hv hrun, get_set, if_pos rfl]
    exact Visit.noConfusion
  · rw [run_visit_active hv, hv]
    exact Visit.noConfusion
  · rw [run_visit_counted hv, hv]
    exact Visit.noConfusion

/-! ### The invariant -/

/-- The counts that a definition and its sentences should have. -/
noncomputable def Network.tally (net : Network n) (v : Fin n) : Tally :=
  ⟨net.expansions v, (net.get v).choices.map (Choice.count net.expansions)⟩

/-- Where visits stand: the definitions in `active` are being counted, those in `visited` have been
visited, counts left behind are the right ones, and no more than `fuel` definitions are new. -/
structure Progress (net : Network n) (active visited : Set (Fin n)) (fuel : Nat)
    (visits : Vector Visit n) : Prop where
  active_iff : ∀ v, visits.get v = .active ↔ v ∈ active
  tally_eq : ∀ v tally, visits.get v = .counted tally → tally = net.tally v
  visited : ∀ v ∈ visited, visits.get v ≠ .new
  new_le : {v | visits.get v = .new}.ncard ≤ fuel

namespace Progress

variable {active visited : Set (Fin n)}

/-- Before the first visit. -/
theorem start (net : Network n) : Progress net ∅ ∅ n (Vector.replicate n .new) where
  active_iff v := by simp
  tally_eq v tally h := by simp at h
  visited v hv := absurd hv (Set.notMem_empty v)
  new_le := by
    have h := Set.ncard_le_card {v : Fin n | (Vector.replicate n Visit.new).get v = .new}
    rwa [Nat.card_fin] at h

/-- To count a new definition uses up a level. -/
theorem enter (h : Progress net active visited (fuel + 1) visits) (hv : visits.get v = .new) :
    Progress net (insert v active) visited fuel (visits.set v .active v.isLt) where
  active_iff w := by
    rw [get_set, Set.mem_insert_iff]
    split
    · next heq => simp [heq]
    · next hne => simp [hne, h.active_iff]
  tally_eq w tally hw := by
    rw [get_set] at hw
    split at hw
    · cases hw
    · exact h.tally_eq w tally hw
  visited w hw := by
    rw [get_set]
    split
    · exact Visit.noConfusion
    · exact h.visited w hw
  new_le := by
    have hsub : {w | (visits.set v .active v.isLt).get w = .new} ⊂ {w | visits.get w = .new} := by
      refine ⟨fun w hw => ?_, fun hsub => ?_⟩
      · rw [Set.mem_ofPred_eq, get_set] at hw
        split at hw
        · cases hw
        · exact hw
      · have hmem : (visits.set v .active v.isLt).get v = .new := hsub hv
        rw [get_set, if_pos rfl] at hmem
        cases hmem
    have hlt := Set.ncard_lt_ncard hsub (Set.toFinite _)
    have hle := h.new_le
    omega

/-- The right counts are left behind. -/
theorem leave (h : Progress net (insert v active) visited fuel visits) (hv : v ∉ active) :
    Progress net active visited (fuel + 1) (visits.set v (.counted (net.tally v)) v.isLt) where
  active_iff w := by
    rw [get_set]
    split
    · next heq => simp [heq, hv]
    · next hne => simp [h.active_iff, hne]
  tally_eq w tally hw := by
    rw [get_set] at hw
    split at hw
    · next heq =>
      cases hw
      rw [heq]
    · exact h.tally_eq w tally hw
  visited w hw := by
    rw [get_set]
    split
    · exact Visit.noConfusion
    · exact h.visited w hw
  new_le := by
    have hsub : {w | (visits.set v (.counted (net.tally v)) v.isLt).get w = .new}
        ⊆ {w | visits.get w = .new} := by
      intro w hw
      rw [Set.mem_ofPred_eq, get_set] at hw
      split at hw
      · cases hw
      · exact hw
    have hle := Set.ncard_le_ncard hsub (Set.toFinite _)
    exact hle.trans (h.new_le.trans (Nat.le_succ fuel))

theorem visit {w : Fin n} (h : Progress net active visited fuel visits)
    (hw : visits.get w ≠ .new) : Progress net active (insert w visited) fuel visits where
  active_iff := h.active_iff
  tally_eq := h.tally_eq
  visited x hx := by
    rcases Set.mem_insert_iff.mp hx with rfl | hx
    · exact hw
    · exact h.visited x hx
  new_le := h.new_le

end Progress

/-! ### Every visit answers with the right count -/

/-- The answer for a definition that is not new.  If it is still being counted, then it leads back
to itself. -/
theorem visit_of_ne_new {active visited : Set (Fin n)} {left : Nat}
    (hactive : ∀ a ∈ active, TransGen net.Refers a v)
    (h : Progress net active visited left visits) (hv : visits.get v ≠ .new) :
    ((net.visit fuel v).run visits).1 = net.expansions v ∧
      Progress net active visited left ((net.visit fuel v).run visits).2 := by
  rcases hvisit : visits.get v with _ | _ | tally
  · exact absurd hvisit hv
  · rw [run_visit_active hvisit]
    have hloops := Network.loops_of_circle (hactive v ((h.active_iff v).mp hvisit))
    exact ⟨(expansions_of_loops hloops).symm, h⟩
  · rw [run_visit_counted hvisit]
    exact ⟨congrArg Tally.total (h.tally_eq v tally hvisit), h⟩

/-- A visit answers with the right count where all that is being counted leads to it. -/
theorem yields_visit {active visited : Set (Fin n)}
    (hactive : ∀ a ∈ active, TransGen net.Refers a v) :
    Yields (Progress net active visited fuel) (net.visit fuel v) (net.expansions v) := by
  induction fuel generalizing v active with
  | zero =>
    intro visits h
    refine visit_of_ne_new hactive h fun hv => ?_
    -- there are no levels left, and so no definition is new
    have hzero : {w | visits.get w = .new}.ncard = 0 := Nat.le_zero.mp h.new_le
    rw [Set.ncard_eq_zero (Set.toFinite _)] at hzero
    exact Set.eq_empty_iff_forall_notMem.mp hzero v hv
  | succ fuel ih =>
    intro visits h
    by_cases hv : visits.get v = .new
    · -- the targets are visited while `v` is active, and `v` leads to them
      have hsentences : Yields (Progress net (insert v active) visited fuel)
          ((net.get v).choices.mapM (Choice.countWith (net.visit fuel)))
          ((net.get v).choices.map (Choice.count net.expansions)) := by
        refine Yields.mapM fun c hc => yields_choice fun target optional ht => ih fun a ha => ?_
        have hrefers : net.Refers v target := ⟨c, hc, optional, ht⟩
        rcases Set.mem_insert_iff.mp ha with rfl | ha
        · exact TransGen.single hrefers
        · exact (hactive a ha).tail hrefers
      rcases hrun : ((net.get v).choices.mapM (Choice.countWith (net.visit fuel))).run
        (visits.set v .active v.isLt) with ⟨sentences, visits'⟩
      obtain ⟨hval, hprogress⟩ := hsentences _ (h.enter hv)
      rw [hrun] at hval hprogress
      obtain rfl : sentences = _ := hval
      have hinactive : v ∉ active := by
        rw [← h.active_iff v, hv]
        exact Visit.noConfusion
      -- what was counted sums up to the count of `v`, since that count satisfies the rule
      rw [run_visit_new hv hrun, sum_count_expansions]
      exact ⟨rfl, hprogress.leave hinactive⟩
    · exact visit_of_ne_new hactive h hv

/-! ### Visiting definitions in order -/

/-- Definitions visited one after the other are all visited in the end. -/
theorem progress_forM {visited : Set (Fin n)} (order : List (Fin n))
    (h : Progress net ∅ visited n visits) :
    Progress net ∅ (visited ∪ {v | v ∈ order}) n
      ((order.forM fun v => discard (net.visit n v)).run visits).2 := by
  induction order generalizing visited visits with
  | nil =>
    have hnil : visited ∪ {v | v ∈ ([] : List (Fin n))} = visited := by simp
    rw [hnil]
    exact h
  | cons v order ih =>
    have hcons : visited ∪ {w | w ∈ v :: order} = insert v visited ∪ {w | w ∈ order} := by
      ext w
      simp only [Set.mem_union, Set.mem_insert_iff, Set.mem_ofPred_eq, List.mem_cons]
      tauto
    have hactive : ∀ a ∈ (∅ : Set (Fin n)), TransGen net.Refers a v :=
      fun a ha => absurd ha (Set.notMem_empty a)
    obtain ⟨-, hrun⟩ := yields_visit hactive visits h
    rw [hcons]
    exact ih (hrun.visit (visit_ne_new (Nat.ne_zero_of_lt v.isLt)))

/-- **The order of visits does not matter**: a definition that is visited gets the counts that it
should have, whatever is visited before and after. -/
theorem get_countsBy {order : List (Fin n)} (hv : v ∈ order) :
    (net.countsBy order).get v = net.tally v := by
  have h := progress_forM order (Progress.start net)
  rw [Network.countsBy, Vector.get_eq_getElem, Vector.getElem_map, ← Vector.get_eq_getElem]
  set visits := ((order.forM fun v => discard (net.visit n v)).run (Vector.replicate n .new)).2
  rcases hvisit : visits.get v with _ | _ | tally
  · exact absurd hvisit (h.visited v (.inr hv))
  · exact absurd ((h.active_iff v).mp hvisit) (Set.notMem_empty v)
  · exact h.tally_eq v tally hvisit

/-- The counts of a network. -/
theorem get_counts (net : Network n) (v : Fin n) : net.counts.get v = net.tally v :=
  get_countsBy (List.mem_finRange v)

end IntentGrammar
