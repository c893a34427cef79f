import IntentGrammar.Proofs.Cardinalities

/-!
# Definitions that say the same

Two networks may number their definitions differently and still say the same about some of them.
`Network.Alike` says that a relation between their definitions is such a correspondence: it is one
to one, definitions that correspond have the same key, the same arguments and the same sentences,
and their references lead to definitions that correspond again.  So whatever is reached from
definitions that correspond does as well.

Counts do not depend on the numbers: definitions that correspond lead to a circle both or neither
(`loops_iff`), and so they have the same counts, and so have their sentences (`tally_eq`).
-/

namespace IntentGrammar

open Relation

variable {n m : Nat}

/-! ### What it means to say the same -/

section Alike

variable (R : Fin n → Fin m → Prop)

/-- The same words, or references to definitions that correspond. -/
inductive Step.Alike : Step n → Step m → Prop
  | words (words : List String) (optional : Bool) :
      Alike (.words words optional) (.words words optional)
  | reference {v : Fin n} {w : Fin m} (h : R v w) (optional : Bool) :
      Alike (.reference v optional) (.reference w optional)

/-- The same steps and the same weight; the lines may differ. -/
structure Choice.Alike (c : Choice n) (d : Choice m) : Prop where
  steps : List.Forall₂ (Step.Alike R) c.steps d.steps
  weight : c.weight = d.weight

/-- The same key, the same arguments and the same sentences. -/
structure Node.Alike (v : Node n) (w : Node m) : Prop where
  key : v.key = w.key
  arguments (name : String) : v.argument? name = w.argument? name
  choices : List.Forall₂ (Choice.Alike R) v.choices w.choices

/-- The correspondence is one to one, and what corresponds says the same. -/
structure Network.Alike (net : Network n) (net' : Network m) : Prop where
  unique : Relator.BiUnique R
  nodes (v : Fin n) (w : Fin m) : R v w → Node.Alike R (net.get v) (net'.get w)

end Alike

variable {R : Fin n → Fin m → Prop} {net : Network n} {net' : Network m} {v : Fin n} {w : Fin m}

theorem Step.Alike.symm {s : Step n} {t : Step m} (h : Step.Alike R s t) :
    Step.Alike (flip R) t s := by
  cases h with
  | words words optional => exact .words words optional
  | reference h optional =>
    have hflip : flip R _ _ := h
    exact .reference hflip optional

theorem Choice.Alike.symm {c : Choice n} {d : Choice m} (h : Choice.Alike R c d) :
    Choice.Alike (flip R) d c where
  steps := h.steps.flip.imp fun _ _ => Step.Alike.symm
  weight := h.weight.symm

namespace Network.Alike

/-- What corresponds one way corresponds the other way. -/
theorem symm (h : Network.Alike R net net') : Network.Alike (flip R) net' net where
  unique := ⟨fun _ _ _ hR hR' => h.unique.2 hR hR', fun _ _ _ hR hR' => h.unique.1 hR hR'⟩
  nodes w v hR := {
    key := (h.nodes v w hR).key.symm
    arguments := fun name => ((h.nodes v w hR).arguments name).symm
    choices := (h.nodes v w hR).choices.flip.imp fun _ _ => Choice.Alike.symm }

/-! ### References -/

/-- References correspond. -/
theorem exists_refers (h : Network.Alike R net net') (hR : R v w) {v' : Fin n}
    (hrefers : net.Refers v v') : ∃ w', net'.Refers w w' ∧ R v' w' := by
  obtain ⟨c, hc, optional, hs⟩ := hrefers
  obtain ⟨d, hd, hcd⟩ := exists_right_of_forall₂ (h.nodes v w hR).choices hc
  obtain ⟨t, ht, hst⟩ := exists_right_of_forall₂ hcd.steps hs
  cases hst with
  | reference hR' _ => exact ⟨_, ⟨d, hd, optional, ht⟩, hR'⟩

theorem exists_transGen (h : Network.Alike R net net') (hR : R v w) {v' : Fin n}
    (hwalk : TransGen net.Refers v v') : ∃ w', TransGen net'.Refers w w' ∧ R v' w' := by
  induction hwalk with
  | single hstep =>
    obtain ⟨w', hstep', hR'⟩ := h.exists_refers hR hstep
    exact ⟨w', .single hstep', hR'⟩
  | tail _ hstep ih =>
    obtain ⟨x, hwalk', hRx⟩ := ih
    obtain ⟨w', hstep', hR'⟩ := h.exists_refers hRx hstep
    exact ⟨w', hwalk'.tail hstep', hR'⟩

/-- A circle corresponds to a circle, since the correspondence is one to one. -/
theorem loops (h : Network.Alike R net net') (hR : R v w) (hv : net.Loops v) : net'.Loops w := by
  obtain ⟨x, hreach, hcircle⟩ := hv
  have hx : ∃ y, net'.Reaches w y ∧ R x y := by
    rcases reflTransGen_iff_eq_or_transGen.mp hreach with rfl | hwalk
    · exact ⟨w, .refl, hR⟩
    · obtain ⟨y, hwalk', hRy⟩ := h.exists_transGen hR hwalk
      exact ⟨y, hwalk'.to_reflTransGen, hRy⟩
  obtain ⟨y, hreach', hRy⟩ := hx
  obtain ⟨y', hcircle', hRy'⟩ := h.exists_transGen hRy hcircle
  obtain rfl : y = y' := h.unique.2 hRy hRy'
  exact ⟨y, hreach', hcircle'⟩

theorem loops_iff (h : Network.Alike R net net') (hR : R v w) : net.Loops v ↔ net'.Loops w :=
  ⟨h.loops hR, h.symm.loops hR⟩

end Network.Alike

/-! ### Members that correspond -/

section Lists

variable {α β γ : Type} {S : α → β → Prop} {xs : List α} {ys : List β}

/-- Of members that correspond it may be used that they are members. -/
theorem forall₂_and_mem (h : List.Forall₂ S xs ys) :
    List.Forall₂ (fun x y => (x ∈ xs ∧ y ∈ ys) ∧ S x y) xs ys := by
  have hleft : List.Forall₂ (fun x y => x ∈ xs ∧ S x y) xs ys :=
    (List.forall₂_and_left xs ys).mpr ⟨fun _ hx => hx, h⟩
  have hboth : List.Forall₂ (fun y x => y ∈ ys ∧ x ∈ xs ∧ S x y) ys xs :=
    (List.forall₂_and_left ys xs).mpr ⟨fun _ hy => hy, hleft.flip⟩
  exact hboth.flip.imp fun _ _ ⟨hy, hx, hS⟩ => ⟨⟨hx, hy⟩, hS⟩

/-- Functions that agree on members that correspond give the same results. -/
theorem map_eq_map_of_forall₂ {f : α → γ} {g : β → γ} (h : List.Forall₂ S xs ys)
    (hfg : ∀ x ∈ xs, ∀ y ∈ ys, S x y → f x = g y) : xs.map f = ys.map g := by
  rw [← List.forall₂_eq_eq_eq, List.forall₂_map_left_iff, List.forall₂_map_right_iff]
  exact (forall₂_and_mem h).imp fun x y ⟨⟨hx, hy⟩, hS⟩ => hfg x hx y hy hS

end Lists

/-! ### Counts -/

section Counts

variable {counts : Fin n → Cardinality} {counts' : Fin m → Cardinality}

theorem count_step_eq {s : Step n} {t : Step m} (hst : Step.Alike R s t)
    (hcounts : ∀ target optional, s = .reference target optional →
      ∀ target', R target target' → counts target = counts' target') :
    s.count counts = t.count counts' := by
  cases hst with
  | words words optional => rfl
  | reference hR optional =>
    rw [Step.count_reference, Step.count_reference, hcounts _ _ rfl _ hR]

theorem count_choice_eq {c : Choice n} {d : Choice m} (hcd : Choice.Alike R c d)
    (hcounts : ∀ target optional, Step.reference target optional ∈ c.steps →
      ∀ target', R target target' → counts target = counts' target') :
    c.count counts = d.count counts' := by
  have hsteps : c.steps.map (Step.count counts) = d.steps.map (Step.count counts') :=
    map_eq_map_of_forall₂ hcd.steps fun s hs t _ hst =>
      count_step_eq hst fun target optional heq => hcounts target optional (heq ▸ hs)
  rw [Choice.count_eq_foldl, Choice.count_eq_foldl,
    ← List.foldl_map (f := Step.count counts) (g := Cardinality.times),
    ← List.foldl_map (f := Step.count counts') (g := Cardinality.times), hsteps]

end Counts

namespace Network.Alike

/-- **Definitions that correspond have the same count.** -/
theorem expansions_eq (h : Network.Alike R net net') (hR : R v w) :
    net.expansions v = net'.expansions w := by
  by_cases hv : net.Loops v
  · rw [expansions_of_loops hv, expansions_of_loops (h.loops hR hv)]
  · -- the rule gives both counts from those of the targets, which have less ahead of them
    induction hk : descent net.Refers v using Nat.strong_induction_on generalizing v w with
    | _ k ih =>
      rw [← sum_count_expansions net v, ← sum_count_expansions net' w]
      refine congrArg Cardinality.sum (map_eq_map_of_forall₂ (h.nodes v w hR).choices ?_)
      intro c hc d _ hcd
      refine count_choice_eq hcd fun target optional ht target' hR' => ?_
      have hrefers : net.Refers v target := ⟨c, hc, optional, ht⟩
      exact ih _ (hk ▸ descent_lt_of_refers hv hrefers) hR' (not_loops_of_refers hv hrefers) rfl

/-- Definitions that correspond have the same counts, sentence by sentence. -/
theorem tally_eq (h : Network.Alike R net net') (hR : R v w) : net.tally v = net'.tally w := by
  have hsentences : (net.get v).choices.map (Choice.count net.expansions)
      = (net'.get w).choices.map (Choice.count net'.expansions) :=
    map_eq_map_of_forall₂ (h.nodes v w hR).choices fun c _ d _ hcd =>
      count_choice_eq hcd fun _ _ _ _ hR' => h.expansions_eq hR'
  rw [Network.tally, Network.tally, h.expansions_eq hR, hsentences]

end Network.Alike

end IntentGrammar
