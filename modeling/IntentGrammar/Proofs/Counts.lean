import IntentGrammar.Graph.Cardinality
import IntentGrammar.Proofs.Finiteness

/-!
# The counts that satisfy the rule

`Network.expansions` is the count a definition should have: unbounded if a circle of references is
reached from it, and otherwise the number of its derivations, capped.  It is said without any
search, and it solves the rule of counting in every network, accepted or not
(`sum_count_expansions`): what the rule computes from these counts for the sentences of a
definition sums up to the count of that definition.

Two things make this work.  Capped sums and products of capped numbers are the capped sums and
products of the numbers (`ofNat_plus_ofNat`, `ofNat_times_ofNat`), so that capping at every step
does no harm; and one unbounded step makes its sentence and its definition unbounded, even beside a
count of zero.
-/

namespace IntentGrammar

/-! ### Capped arithmetic -/

namespace Cardinality

theorem min_mul_min (a b c : Nat) : min (min a c * min b c) c = min (a * b) c := by
  rcases Nat.le_total a c with ha | ha <;> rcases Nat.le_total b c with hb | hb
  · rw [min_eq_left ha, min_eq_left hb]
  · rw [min_eq_left ha, min_eq_right hb]
    rcases Nat.eq_zero_or_pos a with rfl | hpos
    · simp
    · rw [min_eq_right (Nat.le_mul_of_pos_left c hpos),
        min_eq_right (hb.trans (Nat.le_mul_of_pos_left b hpos))]
  · rw [min_eq_right ha, min_eq_left hb]
    rcases Nat.eq_zero_or_pos b with rfl | hpos
    · simp
    · rw [min_eq_right (Nat.le_mul_of_pos_right c hpos),
        min_eq_right (ha.trans (Nat.le_mul_of_pos_right a hpos))]
  · rw [min_eq_right ha, min_eq_right hb]
    rcases Nat.eq_zero_or_pos c with rfl | hpos
    · simp
    · rw [min_eq_right (Nat.le_mul_of_pos_right c hpos),
        min_eq_right (ha.trans (Nat.le_mul_of_pos_right a (hpos.trans_le hb)))]

theorem ofNat_times_ofNat (a b : Nat) : (ofNat a).times (ofNat b) = ofNat (a * b) := by
  simp only [ofNat, times, min_mul_min]

theorem ofNat_plus_ofNat (a b : Nat) : (ofNat a).plus (ofNat b) = ofNat (a + b) := by
  simp only [ofNat, plus, finite.injEq]
  omega

/-- Below the cap nothing is lost. -/
theorem toNat_ofNat {k : Nat} (hk : k < cap) : (ofNat k).toNat = k := Nat.min_eq_left hk.le

theorem one_eq_ofNat : one = ofNat 1 := rfl

theorem zero_eq_ofNat : finite 0 = ofNat 0 := rfl

@[simp] theorem unbounded_times (c : Cardinality) : unbounded.times c = unbounded := rfl

@[simp] theorem times_unbounded (c : Cardinality) : c.times unbounded = unbounded := by
  cases c <;> rfl

@[simp] theorem unbounded_plus (c : Cardinality) : unbounded.plus c = unbounded := rfl

@[simp] theorem plus_unbounded (c : Cardinality) : c.plus unbounded = unbounded := by
  cases c <;> rfl

theorem foldl_plus_unbounded (cs : List Cardinality) : cs.foldl plus unbounded = unbounded := by
  induction cs with
  | nil => rfl
  | cons c cs ih => rw [List.foldl_cons, unbounded_plus, ih]

/-- One unbounded sentence makes a sum unbounded. -/
theorem foldl_plus_of_mem {cs : List Cardinality} (h : unbounded ∈ cs) (start : Cardinality) :
    cs.foldl plus start = unbounded := by
  induction cs generalizing start with
  | nil => exact absurd h List.not_mem_nil
  | cons c cs ih =>
    rw [List.foldl_cons]
    rcases List.mem_cons.mp h with rfl | h
    · rw [plus_unbounded, foldl_plus_unbounded]
    · exact ih h _

theorem foldl_plus_ofNat (ns : List Nat) (start : Nat) :
    (ns.map ofNat).foldl plus (ofNat start) = ofNat (start + ns.sum) := by
  induction ns generalizing start with
  | nil => simp
  | cons k ns ih =>
    rw [List.map_cons, List.foldl_cons, ofNat_plus_ofNat, ih, List.sum_cons, Nat.add_assoc]

theorem sum_of_mem {cs : List Cardinality} (h : unbounded ∈ cs) : sum cs = unbounded :=
  foldl_plus_of_mem h _

theorem sum_map_ofNat (ns : List Nat) : sum (ns.map ofNat) = ofNat ns.sum := by
  rw [sum, zero_eq_ofNat, foldl_plus_ofNat, Nat.zero_add]

end Cardinality

variable {n : Nat} {net : Network n} {v : Fin n} {s : Step n} {steps : List (Step n)}

/-! ### The rule, step by step -/

theorem Step.count_reference (counts : Fin n → Cardinality) (target : Fin n) (optional : Bool) :
    (Step.reference target optional).count counts
      = if optional then (counts target).plus .one else counts target := rfl

theorem Choice.count_eq_foldl (counts : Fin n → Cardinality) (c : Choice n) :
    c.count counts = c.steps.foldl (fun total step => total.times (step.count counts)) .one := by
  rw [Choice.count, Choice.countWith, List.idRun_foldlM]
  rfl

/-! ### The counts there should be -/

open Classical in
/-- The number of derivations, or none if a circle is reached. -/
noncomputable def Network.expansions (net : Network n) (v : Fin n) : Cardinality :=
  if net.Loops v then .unbounded else .ofNat (Nat.card (Derivation net v))

theorem expansions_of_loops (hv : net.Loops v) : net.expansions v = .unbounded := by
  rw [Network.expansions, if_pos hv]

theorem expansions_of_not_loops (hv : ¬ net.Loops v) :
    net.expansions v = .ofNat (Nat.card (Derivation net v)) := by
  rw [Network.expansions, if_neg hv]

theorem expansions_eq_unbounded_iff : net.expansions v = .unbounded ↔ net.Loops v := by
  constructor
  · intro h
    by_contra hv
    rw [expansions_of_not_loops hv] at h
    cases h
  · exact expansions_of_loops

theorem card_decisions_cons :
    Nat.card (Decisions net (s :: steps))
      = Nat.card (Decision net s) * Nat.card (Decisions net steps) := by
  rw [Nat.card_congr (Decisions.equivProd net s steps), Nat.card_prod]

theorem card_decision_reference {target : Fin n} (h : ¬ net.Loops target) (optional : Bool) :
    Nat.card (Decision net (.reference target optional))
      = Nat.card (Derivation net target) + optional.toNat := by
  have := finite_of_not_loops h
  cases optional with
  | false => exact Nat.card_congr (Decision.equivDerivation net target)
  | true =>
    rw [Nat.card_congr (Decision.equivOption net target), Finite.card_option]
    rfl

/-- The rule counts the decisions for a step. -/
theorem count_step_expansions {s : Step n} (hs : net.Plain s) :
    s.count net.expansions = .ofNat (Nat.card (Decision net s)) := by
  match s, hs with
  | .words words false, _ =>
    rw [Nat.card_congr (Decision.equivUnit net words), Nat.card_unique]
    rfl
  | .words words true, _ =>
    rw [Nat.card_congr (Decision.equivBool net words), Nat.card_eq_fintype_card, Fintype.card_bool]
    rfl
  | .reference target optional, hs =>
    have htarget := hs target optional rfl
    rw [card_decision_reference htarget, Step.count_reference, expansions_of_not_loops htarget]
    cases optional with
    | false => rfl
    | true => rw [if_pos rfl, Cardinality.one_eq_ofNat, Cardinality.ofNat_plus_ofNat, Bool.toNat_true]

/-- The rule counts the decisions for steps, times what has been counted before. -/
theorem foldl_times_expansions (h : ¬ net.Leads steps) (start : Nat) :
    steps.foldl (fun (total : Cardinality) step => total.times (step.count net.expansions))
        (.ofNat start)
      = .ofNat (start * Nat.card (Decisions net steps)) := by
  induction steps generalizing start with
  | nil =>
    rw [Nat.card_congr (Decisions.equivUnit net), Nat.card_unique, Nat.mul_one]
    rfl
  | cons s steps ih =>
    obtain ⟨hs, hsteps⟩ := not_leads_cons_iff.mp h
    rw [List.foldl_cons, count_step_expansions hs, Cardinality.ofNat_times_ofNat, ih hsteps,
      card_decisions_cons, Nat.mul_assoc]

theorem foldl_times_unbounded (counts : Fin n → Cardinality) (steps : List (Step n)) :
    steps.foldl (fun (total : Cardinality) step => total.times (step.count counts)) .unbounded
      = .unbounded := by
  induction steps with
  | nil => rfl
  | cons s steps ih => rw [List.foldl_cons, Cardinality.unbounded_times, ih]

/-- One unbounded step makes a product unbounded. -/
theorem foldl_times_of_mem {counts : Fin n → Cardinality} {s : Step n} (hs : s ∈ steps)
    (hcount : s.count counts = .unbounded) (start : Cardinality) :
    steps.foldl (fun total step => total.times (step.count counts)) start = .unbounded := by
  induction steps generalizing start with
  | nil => exact absurd hs List.not_mem_nil
  | cons s' steps ih =>
    rw [List.foldl_cons]
    rcases List.mem_cons.mp hs with rfl | hs
    · rw [hcount, Cardinality.times_unbounded, foldl_times_unbounded]
    · exact ih hs _

/-- The rule counts the decisions for the steps of a sentence. -/
theorem count_choice_expansions {c : Choice n} (h : ¬ net.Leads c.steps) :
    c.count net.expansions = .ofNat (Nat.card (Decisions net c.steps)) := by
  rw [Choice.count_eq_foldl, Cardinality.one_eq_ofNat, foldl_times_expansions h, Nat.one_mul]

/-- A sentence that leads to a circle is unbounded. -/
theorem count_choice_of_leads {c : Choice n} (h : net.Leads c.steps) :
    c.count net.expansions = .unbounded := by
  obtain ⟨target, optional, hs, hloops⟩ := h
  rw [Choice.count_eq_foldl]
  refine foldl_times_of_mem hs ?_ _
  rw [Step.count_reference, expansions_of_loops hloops]
  cases optional <;> rfl

theorem count_choice_eq_unbounded_iff {c : Choice n} :
    c.count net.expansions = .unbounded ↔ net.Leads c.steps := by
  constructor
  · intro hc
    by_contra h
    rw [count_choice_expansions h] at hc
    cases hc
  · exact count_choice_of_leads

/-- A derivation is one of a sentence with decisions for its steps. -/
theorem card_derivation (hv : ¬ net.Loops v) :
    Nat.card (Derivation net v)
      = ((net.get v).choices.map fun c => Nat.card (Decisions net c.steps)).sum := by
  have hfin : ∀ i : Fin (net.get v).choices.length,
      Finite (Decisions net ((net.get v).choices.get i).steps) := fun i =>
    finite_of_not_leads (not_leads_of_not_loops hv i)
  rw [Nat.card_congr (Derivation.equivSigma net v), Nat.card_sigma]
  exact Fin.sum_univ_fun_getElem (net.get v).choices fun c => Nat.card (Decisions net c.steps)

/-- **The rule is satisfied**: the counts of its sentences sum up to the count of a definition. -/
theorem sum_count_expansions (net : Network n) (v : Fin n) :
    Cardinality.sum ((net.get v).choices.map (Choice.count net.expansions))
      = net.expansions v := by
  by_cases hv : net.Loops v
  · -- one sentence that leads to a circle is enough, whatever the others count
    obtain ⟨c, hc, hleads⟩ := loops_iff_exists_leads.mp hv
    rw [expansions_of_loops hv]
    apply Cardinality.sum_of_mem
    rw [← count_choice_of_leads hleads]
    exact List.mem_map_of_mem hc
  · -- every sentence is counted, and caps come off the sum
    have hmap : (net.get v).choices.map (Choice.count net.expansions)
        = ((net.get v).choices.map fun c => Nat.card (Decisions net c.steps)).map .ofNat := by
      rw [List.map_map]
      refine List.map_congr_left fun c hc => count_choice_expansions fun h => hv ?_
      exact loops_iff_exists_leads.mpr ⟨c, hc, h⟩
    rw [hmap, Cardinality.sum_map_ofNat, expansions_of_not_loops hv, card_derivation hv]

end IntentGrammar
