import IntentGrammar.Proofs.Derivations

/-!
# How many derivations there are

A definition has a derivation if definitions have sentences and required references do not lead
round in a circle (`nonempty_derivation`).  It has finitely many if no circle of references is
reached from it (`finite_of_not_loops`).  Where every definition has a derivation the converse holds
as well (`infinite_iff_loops`): a derivation of a target is part of a larger one of the definition
that refers to it, so going round a circle makes derivations larger and larger.

The same is said of the decisions for the steps of a sentence, which is `Leads` to a circle if one
of its references does.
-/

namespace IntentGrammar

open Relation

variable {n : Nat} {net : Network n} {v w : Fin n} {s : Step n} {steps : List (Step n)}

/-- A step of the sentence refers to a definition from which a circle is reached. -/
def Network.Leads (net : Network n) (steps : List (Step n)) : Prop :=
  ∃ target optional, Step.reference target optional ∈ steps ∧ net.Loops target

theorem loops_iff_exists_leads : net.Loops v ↔ ∃ c ∈ (net.get v).choices, net.Leads c.steps := by
  rw [Network.loops_iff_exists_refers]
  constructor
  · rintro ⟨w, ⟨c, hc, optional, hs⟩, hw⟩
    exact ⟨c, hc, w, optional, hs, hw⟩
  · rintro ⟨c, hc, w, optional, hs, hw⟩
    exact ⟨w, ⟨c, hc, optional, hs⟩, hw⟩

/-- If the step is a reference then to a definition that leads to no circle. -/
def Network.Plain (net : Network n) (s : Step n) : Prop :=
  ∀ target optional, s = .reference target optional → ¬ net.Loops target

theorem not_leads_cons_iff :
    ¬ net.Leads (s :: steps) ↔ net.Plain s ∧ ¬ net.Leads steps := by
  constructor
  · intro h
    exact ⟨fun target optional hs hloops => h ⟨target, optional, hs ▸ List.mem_cons_self, hloops⟩,
      fun ⟨target, optional, ht, hloops⟩ =>
        h ⟨target, optional, List.mem_cons_of_mem s ht, hloops⟩⟩
  · rintro ⟨hs, hsteps⟩ ⟨target, optional, ht, hloops⟩
    rcases List.mem_cons.mp ht with heq | ht
    · exact hs target optional heq.symm hloops
    · exact hsteps ⟨target, optional, ht, hloops⟩

theorem not_leads_of_not_loops (hv : ¬ net.Loops v) (i : Fin (net.get v).choices.length) :
    ¬ net.Leads ((net.get v).choices.get i).steps :=
  fun h => hv (loops_iff_exists_leads.mpr ⟨_, List.get_mem _ i, h⟩)

/-! ### At least one -/

/-- A step can be decided if what it requires can be expanded. -/
theorem nonempty_decision {s : Step n}
    (h : ∀ target, s = .reference target false → Nonempty (Derivation net target)) :
    Nonempty (Decision net s) := by
  match s, h with
  | .words words optional, _ => exact ⟨.keepWords⟩
  | .reference target true, _ => exact ⟨.drop⟩
  | .reference target false, h =>
    obtain ⟨d⟩ := h target rfl
    exact ⟨.keep d⟩

theorem nonempty_decisions
    (h : ∀ target, Step.reference target false ∈ steps → Nonempty (Derivation net target)) :
    Nonempty (Decisions net steps) := by
  induction steps with
  | nil => exact ⟨.nil⟩
  | cons s steps ih =>
    obtain ⟨d⟩ : Nonempty (Decision net s) :=
      nonempty_decision fun target hs => h target (hs ▸ List.mem_cons_self)
    obtain ⟨ds⟩ := ih fun target ht => h target (List.mem_cons_of_mem s ht)
    exact ⟨.cons d ds⟩

/-- Where definitions have sentences and required references lead to no circle, every definition
has a derivation. -/
theorem nonempty_derivation (hchoices : ∀ v, (net.get v).choices ≠ [])
    (hcircle : ∀ v, ¬ TransGen net.Requires v v) (v : Fin n) : Nonempty (Derivation net v) := by
  induction hk : descent net.Requires v using Nat.strong_induction_on generalizing v with
  | _ k ih =>
    -- the first sentence will do: all that it requires is further down
    let first : Fin (net.get v).choices.length := ⟨0, List.length_pos_iff.mpr (hchoices v)⟩
    have hds : Nonempty (Decisions net ((net.get v).choices.get first).steps) := by
      refine nonempty_decisions fun target ht => ?_
      have hrequires : net.Requires v target := ⟨_, List.get_mem _ _, ht⟩
      exact ih _ (hk ▸ descent_lt_of_rel hrequires (hcircle target)) target rfl
    obtain ⟨ds⟩ := hds
    exact ⟨.choose first ds⟩

/-! ### Finitely many -/

/-- There are finitely many ways to decide a step if there are finitely many to expand it. -/
theorem finite_decision {s : Step n}
    (h : ∀ target optional, s = .reference target optional → Finite (Derivation net target)) :
    Finite (Decision net s) := by
  match s, h with
  | .words words false, _ => exact .of_equiv _ (Decision.equivUnit net words).symm
  | .words words true, _ => exact .of_equiv _ (Decision.equivBool net words).symm
  | .reference target false, h =>
    have := h target false rfl
    exact .of_equiv _ (Decision.equivDerivation net target).symm
  | .reference target true, h =>
    have := h target true rfl
    exact .of_equiv _ (Decision.equivOption net target).symm

theorem finite_decisions
    (h : ∀ target optional, Step.reference target optional ∈ steps →
      Finite (Derivation net target)) : Finite (Decisions net steps) := by
  induction steps with
  | nil => exact .of_equiv _ (Decisions.equivUnit net).symm
  | cons s steps ih =>
    have hs : Finite (Decision net s) := finite_decision fun target optional hs =>
      h target optional (hs ▸ List.mem_cons_self)
    have hsteps := ih fun target optional ht => h target optional (List.mem_cons_of_mem s ht)
    exact .of_equiv _ (Decisions.equivProd net s steps).symm

/-- From a definition that leads to no circle there are finitely many derivations. -/
theorem finite_of_not_loops (hv : ¬ net.Loops v) : Finite (Derivation net v) := by
  induction hk : descent net.Refers v using Nat.strong_induction_on generalizing v with
  | _ k ih =>
    have hsteps : ∀ i : Fin (net.get v).choices.length,
        Finite (Decisions net ((net.get v).choices.get i).steps) := by
      intro i
      refine finite_decisions fun target optional ht => ?_
      have hrefers : net.Refers v target := ⟨_, List.get_mem _ _, optional, ht⟩
      exact ih _ (hk ▸ Network.descent_lt_of_refers hv hrefers)
        (Network.not_loops_of_refers hv hrefers) rfl
    exact .of_equiv _ (Derivation.equivSigma net v).symm

theorem finite_of_not_leads (h : ¬ net.Leads steps) : Finite (Decisions net steps) :=
  finite_decisions fun target optional ht =>
    finite_of_not_loops fun hloops => h ⟨target, optional, ht, hloops⟩

/-! ### Infinitely many -/

mutual

/-- The number of sentences chosen in a derivation. -/
def Derivation.size {v : Fin n} : Derivation net v → Nat
  | .choose _ ds => ds.size + 1

/-- The number of sentences chosen below decisions. -/
def Decisions.size : {steps : List (Step n)} → Decisions net steps → Nat
  | _, .nil => 0
  | _, .cons d ds => d.size + ds.size

/-- The number of sentences chosen below a decision. -/
def Decision.size : {s : Step n} → Decision net s → Nat
  | _, .keepWords => 0
  | _, .dropWords => 0
  | _, .keep d => d.size
  | _, .drop => 0

end

/-- A derivation of a target has a place among the decisions for steps that refer to it. -/
theorem exists_size_le_decisions (hne : ∀ v, Nonempty (Derivation net v)) {optional : Bool}
    (h : Step.reference w optional ∈ steps) (d : Derivation net w) :
    ∃ ds : Decisions net steps, d.size ≤ ds.size := by
  induction steps with
  | nil => exact absurd h List.not_mem_nil
  | cons s steps ih =>
    rcases List.mem_cons.mp h with rfl | h
    · obtain ⟨ds⟩ : Nonempty (Decisions net steps) := nonempty_decisions fun target _ => hne target
      exact ⟨.cons (.keep d) ds, Nat.le_add_right _ _⟩
    · obtain ⟨ds, hds⟩ := ih h
      obtain ⟨d'⟩ : Nonempty (Decision net s) := nonempty_decision fun target _ => hne target
      exact ⟨.cons d' ds, hds.trans (Nat.le_add_left _ _)⟩

/-- A derivation of a target is part of a larger one. -/
theorem exists_size_lt_of_refers (hne : ∀ v, Nonempty (Derivation net v)) (h : net.Refers v w)
    (d : Derivation net w) : ∃ e : Derivation net v, d.size < e.size := by
  obtain ⟨c, hc, optional, hs⟩ := h
  obtain ⟨i, hi⟩ := List.get_of_mem hc
  subst hi
  obtain ⟨ds, hds⟩ := exists_size_le_decisions hne hs d
  exact ⟨.choose i ds, Nat.lt_succ_of_le hds⟩

theorem exists_size_lt_of_transGen (hne : ∀ v, Nonempty (Derivation net v))
    (h : TransGen net.Refers v w) (d : Derivation net w) :
    ∃ e : Derivation net v, d.size < e.size := by
  induction h using TransGen.head_induction_on with
  | single h => exact exists_size_lt_of_refers hne h d
  | head h _ ih =>
    obtain ⟨e, he⟩ := ih
    obtain ⟨e', he'⟩ := exists_size_lt_of_refers hne h e
    exact ⟨e', he.trans he'⟩

/-- Where every derivation is followed by a larger one there are infinitely many. -/
theorem infinite_of_forall_exists_lt {α : Type*} [Nonempty α] (size : α → Nat)
    (h : ∀ a, ∃ b, size a < size b) : Infinite α := by
  rw [← not_finite_iff_infinite]
  intro hfin
  obtain ⟨a, ha⟩ := Finite.exists_max size
  obtain ⟨b, hb⟩ := h a
  exact absurd (ha b) (Nat.not_le.mpr hb)

/-- Derivations of a definition that leads to a circle are as large as one likes. -/
theorem exists_size_lt_of_loops (hne : ∀ v, Nonempty (Derivation net v)) (hv : net.Loops v)
    (k : Nat) : ∃ d : Derivation net v, k < d.size := by
  obtain ⟨w, hreach, hcircle⟩ := hv
  -- going round the circle once more makes a derivation of `w` larger
  have hw : ∃ d : Derivation net w, k < d.size := by
    induction k with
    | zero =>
      obtain ⟨d⟩ := hne w
      obtain ⟨e, he⟩ := exists_size_lt_of_transGen hne hcircle d
      exact ⟨e, by omega⟩
    | succ k ih =>
      obtain ⟨d, hd⟩ := ih
      obtain ⟨e, he⟩ := exists_size_lt_of_transGen hne hcircle d
      exact ⟨e, by omega⟩
  obtain ⟨d, hd⟩ := hw
  rcases reflTransGen_iff_eq_or_transGen.mp hreach with rfl | hreach
  · exact ⟨d, hd⟩
  · obtain ⟨e, he⟩ := exists_size_lt_of_transGen hne hreach d
    exact ⟨e, hd.trans he⟩

/-- Where every definition has a derivation, there are infinitely many exactly if a circle is
reached. -/
theorem infinite_iff_loops (hne : ∀ v, Nonempty (Derivation net v)) :
    Infinite (Derivation net v) ↔ net.Loops v := by
  constructor
  · intro hinf
    by_contra hv
    exact hinf.not_finite (finite_of_not_loops hv)
  · intro hv
    have := hne v
    exact infinite_of_forall_exists_lt Derivation.size fun d =>
      exists_size_lt_of_loops hne hv d.size

theorem infinite_iff_leads (hne : ∀ v, Nonempty (Derivation net v)) :
    Infinite (Decisions net steps) ↔ net.Leads steps := by
  constructor
  · intro hinf
    by_contra h
    exact hinf.not_finite (finite_of_not_leads h)
  · rintro ⟨target, optional, ht, hloops⟩
    have : Nonempty (Decisions net steps) := nonempty_decisions fun target _ => hne target
    refine infinite_of_forall_exists_lt Decisions.size fun ds => ?_
    obtain ⟨d, hd⟩ := exists_size_lt_of_loops hne hloops ds.size
    obtain ⟨es, hes⟩ := exists_size_le_decisions hne ht d
    exact ⟨es, hd.trans_le hes⟩

end IntentGrammar
