import IntentGrammar.Plan
import IntentGrammar.Proofs.Traversal

/-!
# What is in the way of a plan

A plan is looked for by the name of an intent, and by a name alone no intent with a variation is
found.  The header of the intent that is found may ask for two numbers whose sum is too large, and
then the program stops.  Nothing else is in the way (`plan_eq_ok_iff`, `plan_eq_error_iff`).

So a run has its plans if all intents are plain and all sums fit (**`Generator.exists_plans`**), and
where it has none, this is because of an intent for which one of the two does not hold
(**`Generator.exists_hinders`**).
-/

namespace IntentGrammar

/-! ### What a header asks for -/

namespace Node

variable {n : Nat} (v : Node n)

/-- The number of utterances for training that a header asks for. -/
def trainingQuota : Nat := ((v.argument? "training").bind readCount?).getD 0

/-- The number of utterances for testing that a header asks for. -/
def testingQuota : Nat := ((v.argument? "testing").bind readCount?).getD 0

/-- The sum of both numbers fits into 64 bits. -/
def QuotasFit : Prop := v.trainingQuota + v.testingQuota ≤ maxCount

instance : Decidable v.QuotasFit := Nat.decLe _ _

/-- The header says how many utterances are for training or for testing. -/
def hasQuotas : Bool :=
  ((v.argument? "training").bind readCount?).isSome ||
    ((v.argument? "testing").bind readCount?).isSome

/-- A header with numbers asks for their sum, which is checked. -/
theorem ownAmount?_eq : v.ownAmount? =
    if v.hasQuotas then
      (checked maxCount .addition (v.trainingQuota + v.testingQuota)).map fun total =>
        some (.samples total, v.testingQuota)
    else .ok none := by
  simp only [ownAmount?]
  rw [hasQuotas, trainingQuota, testingQuota]
  generalize (v.argument? "training").bind readCount? = training
  generalize (v.argument? "testing").bind readCount? = testing
  rcases training with _ | training
  · rcases testing with _ | testing
    · rfl
    · rfl
  · rfl

variable {v}

/-- Without numbers in the header there is nothing to add up. -/
theorem quotas_eq_zero (h : v.hasQuotas = false) : v.trainingQuota + v.testingQuota = 0 := by
  rw [hasQuotas, Bool.or_eq_false_iff, Option.isSome_eq_false_iff, Option.isSome_eq_false_iff,
    Option.isNone_iff_eq_none, Option.isNone_iff_eq_none] at h
  rw [trainingQuota, testingQuota, h.1, h.2]
  rfl

theorem ownAmount?_eq_some (h : 1 ≤ v.trainingQuota + v.testingQuota) (hfits : v.QuotasFit) :
    v.ownAmount?
      = .ok (some (.samples (v.trainingQuota + v.testingQuota), v.testingQuota)) := by
  have hasks : v.hasQuotas = true := by
    by_contra hnone
    rw [quotas_eq_zero (Bool.not_eq_true _ ▸ hnone)] at h
    exact absurd h (by decide)
  rw [ownAmount?_eq, if_pos hasks, checked_of_le hfits]
  rfl

theorem ownAmount?_of_not_fits (h : ¬ v.QuotasFit) : v.ownAmount? = .error .addition := by
  have hasks : v.hasQuotas = true := by
    by_contra hnone
    rw [QuotasFit, quotas_eq_zero (Bool.not_eq_true _ ▸ hnone)] at h
    exact h (Nat.zero_le _)
  rw [ownAmount?_eq, if_pos hasks, checked_of_lt (Nat.not_le.mp h)]
  rfl

theorem exists_ownAmount? (h : v.QuotasFit) : ∃ own, v.ownAmount? = .ok own := by
  rw [ownAmount?_eq, checked_of_le h]
  split
  · exact ⟨_, rfl⟩
  · exact ⟨_, rfl⟩

theorem quotasFit_of_ownAmount? {own : Option (Amount × Nat)} (h : v.ownAmount? = .ok own) :
    v.QuotasFit := by
  by_contra hfits
  rw [ownAmount?_of_not_fits hfits] at h
  cases h

theorem quotasFit_iff : v.QuotasFit ↔ ∃ own, v.ownAmount? = .ok own :=
  ⟨exists_ownAmount?, fun ⟨_, h⟩ => quotasFit_of_ownAmount? h⟩

end Node

/-! ### One plan -/

section Plan

variable {gen : Generator} {name : String} {request : Request} {plan : Plan gen.graph}

theorem plan_eq_ok_iff :
    gen.plan name request = .ok plan ↔
      ∃ intent own, gen.graph.intent? name = some intent ∧
        (gen.graph.node intent).ownAmount? = .ok own ∧
        gen.planAt intent name own request = plan := by
  rw [Generator.plan]
  rcases gen.graph.intent? name with _ | intent
  · constructor
    · intro h
      cases h
    · rintro ⟨intent, own, h, -⟩
      cases h
  · simp only
    rcases hown : (gen.graph.node intent).ownAmount? with p | own
    · constructor
      · intro h
        cases h
      · rintro ⟨w, own, hw, howns, -⟩
        obtain rfl := Option.some.inj hw
        rw [hown] at howns
        cases howns
    · constructor
      · intro h
        exact ⟨intent, own, rfl, hown, Except.ok.inj h⟩
      · rintro ⟨w, own', hw, howns, rfl⟩
        obtain rfl := Option.some.inj hw
        obtain rfl := Except.ok.inj (hown.symm.trans howns)
        rfl

/-- An intent that is found has a plan if the sum in its header fits. -/
theorem exists_plan {intent : Fin gen.graph.size} (hintent : gen.graph.intent? name = some intent)
    (hfits : (gen.graph.node intent).QuotasFit) (request : Request) :
    ∃ own, (gen.graph.node intent).ownAmount? = .ok own ∧
      gen.plan name request = .ok (gen.planAt intent name own request) := by
  obtain ⟨own, hown⟩ := Node.exists_ownAmount? hfits
  exact ⟨own, hown, plan_eq_ok_iff.mpr ⟨intent, own, hintent, hown, rfl⟩⟩

/-- If the sum does not fit, the program stops. -/
theorem plan_of_not_fits {intent : Fin gen.graph.size}
    (hintent : gen.graph.intent? name = some intent)
    (hfits : ¬ (gen.graph.node intent).QuotasFit) (request : Request) :
    gen.plan name request = .error (.panic .addition) := by
  rw [Generator.plan, hintent]
  simp only [Node.ownAmount?_of_not_fits hfits]

theorem plan_eq_error_iff {e : Error} :
    gen.plan name request = .error e ↔
      gen.graph.intent? name = none ∧ e = .unknownIntent name ∨
        ∃ intent, gen.graph.intent? name = some intent ∧
          ¬ (gen.graph.node intent).QuotasFit ∧ e = .panic .addition := by
  rcases hintent : gen.graph.intent? name with _ | intent
  · rw [Generator.plan, hintent]
    simp [eq_comm]
  · by_cases hfits : (gen.graph.node intent).QuotasFit
    · obtain ⟨own, -, hplan⟩ := exists_plan hintent hfits request
      simp [hplan, hfits]
    · simp [plan_of_not_fits hintent hfits, hfits, eq_comm]

end Plan

/-! ### Plans for all intents -/

namespace Graph

variable (g : Graph)

/-- No two intents have the same name. -/
def DistinctIntents : Prop := (g.intents.map fun v => (g.node v).key.name).Nodup

/-- No intent has a variation. -/
def PlainIntents : Prop := ∀ v ∈ g.intents, (g.node v).key.variation = none

/-- In every header of an intent the sum of the numbers fits into 64 bits. -/
def QuotasFit : Prop := ∀ v ∈ g.intents, (g.node v).QuotasFit

/-- What is in the way of a plan for an intent: it has a variation, or else the sum in its header
does not fit. -/
inductive Hinders (v : Fin g.size) : Error → Prop
  | varied : (g.node v).key.variation ≠ none → Hinders v (.unknownIntent (g.node v).key.name)
  | excessive : (g.node v).key.variation = none → ¬ (g.node v).QuotasFit →
      Hinders v (.panic .addition)

variable {g}

theorem mem_intents_iff {v : Fin g.size} : v ∈ g.intents ↔ (g.node v).key.kind = .intent := by
  simp [intents]

theorem key_of_intent?_eq_some {name : String} {v : Fin g.size} (h : g.intent? name = some v) :
    (g.node v).key = ⟨.intent, name, none⟩ := by
  rw [intent?, find?] at h
  simpa using List.find?_some h

theorem mem_intents_of_intent? {name : String} {v : Fin g.size} (h : g.intent? name = some v) :
    v ∈ g.intents :=
  mem_intents_iff.mpr (congrArg Key.kind (key_of_intent?_eq_some h))

/-- By the name of an intent without a variation an intent is found. -/
theorem exists_intent? {v : Fin g.size} (hv : v ∈ g.intents)
    (hplain : (g.node v).key.variation = none) :
    ∃ w, g.intent? (g.node v).key.name = some w := by
  rw [← Option.ne_none_iff_exists', intent?, find?, ne_eq, List.find?_eq_none]
  intro hnone
  have hkey : (g.node v).key = ⟨.intent, (g.node v).key.name, none⟩ := by
    rw [← hplain, ← mem_intents_iff.mp hv]
  have hother : ¬ (g.node v).key = ⟨.intent, (g.node v).key.name, none⟩ := by
    simpa using hnone v (by simp)
  exact hother hkey

/-- What is found by the name of an intent is that intent, and it has no variation. -/
theorem eq_of_intent?_name (hnames : g.DistinctIntents) {v w : Fin g.size} (hv : v ∈ g.intents)
    (h : g.intent? (g.node v).key.name = some w) :
    w = v ∧ (g.node v).key.variation = none := by
  have hw := key_of_intent?_eq_some h
  have hname : (g.node w).key.name = (g.node v).key.name := by rw [hw]
  obtain rfl : w = v := List.inj_on_of_nodup_map hnames (mem_intents_of_intent? h) hv hname
  exact ⟨rfl, congrArg Key.variation hw⟩

end Graph

namespace Generator

variable {gen : Generator} {request : Request} {plans : List (Plan gen.graph)}

/-- Nothing is in the way of a run: every intent has a plan, and what may be left out of a sampled
sentence is kept with a probability. -/
structure Ready (gen : Generator) : Prop where
  plain : gen.graph.PlainIntents
  quotas : gen.graph.QuotasFit
  probability : isProbability gen.settings.optionalProbability = true

theorem mapM_plan_eq (request : Request) : gen.plans request
    = gen.graph.intents.mapM fun v => gen.plan (gen.graph.node v).key.name request := rfl

/-- The plans have the names of the intents, in order. -/
theorem names_of_plans_eq_ok (h : gen.plans request = .ok plans) :
    plans.map (·.name) = gen.graph.intents.map fun v => (gen.graph.node v).key.name := by
  rw [mapM_plan_eq, mapM_eq_ok_iff] at h
  rw [← List.forall₂_eq_eq_eq, List.forall₂_map_left_iff, List.forall₂_map_right_iff]
  refine h.flip.imp fun p v hp => ?_
  obtain ⟨w, own, -, -, rfl⟩ := plan_eq_ok_iff.mp hp
  rfl

/-- If names are distinct, the plans are for the intents. -/
theorem intents_of_plans_eq_ok (hnames : gen.graph.DistinctIntents)
    (h : gen.plans request = .ok plans) : plans.map (·.intent) = gen.graph.intents := by
  rw [mapM_plan_eq, mapM_eq_ok_iff] at h
  rw [← List.map_id gen.graph.intents, ← List.forall₂_eq_eq_eq, List.forall₂_map_left_iff,
    List.forall₂_map_right_iff, List.forall₂_iff_get]
  obtain ⟨hlength, hget⟩ := List.forall₂_iff_get.mp h
  refine ⟨hlength.symm, fun i hp hv => ?_⟩
  obtain ⟨w, own, hw, -, heq⟩ := plan_eq_ok_iff.mp (hget i hv hp)
  rw [← heq]
  exact (Graph.eq_of_intent?_name hnames (List.get_mem _ _) hw).1

/-- **Plans for all intents** exist if all are plain and all sums fit. -/
theorem exists_plans (hplain : gen.graph.PlainIntents) (hfits : gen.graph.QuotasFit)
    (request : Request) : ∃ plans, gen.plans request = .ok plans := by
  rcases hplans : gen.plans request with e | plans
  · obtain ⟨v, hv, herror⟩ := exists_of_mapM_eq_error hplans
    obtain ⟨w, hw⟩ := Graph.exists_intent? hv (hplain v hv)
    obtain ⟨own, -, hplan⟩ :=
      exists_plan hw (hfits w (Graph.mem_intents_of_intent? hw)) request
    rw [hplan] at herror
    cases herror
  · exact ⟨plans, rfl⟩

/-- **Where there are no plans**, something is in the way of the plan for an intent. -/
theorem exists_hinders {e : Error} (h : gen.plans request = .error e) :
    ∃ v ∈ gen.graph.intents, gen.graph.Hinders v e := by
  obtain ⟨v, hv, herror⟩ := exists_of_mapM_eq_error h
  rcases plan_eq_error_iff.mp herror with ⟨hnone, rfl⟩ | ⟨w, hw, hfits, rfl⟩
  · refine ⟨v, hv, .varied fun hplain => ?_⟩
    obtain ⟨w, hw⟩ := Graph.exists_intent? hv hplain
    rw [hnone] at hw
    cases hw
  · exact ⟨w, Graph.mem_intents_of_intent? hw,
      .excessive (congrArg Key.variation (Graph.key_of_intent?_eq_some hw)) hfits⟩

/-- With distinct names there are plans just if nothing is in the way. -/
theorem exists_plans_eq_error (hnames : gen.graph.DistinctIntents)
    (h : ¬ (gen.graph.PlainIntents ∧ gen.graph.QuotasFit)) (request : Request) :
    ∃ e, gen.plans request = .error e := by
  rcases hplans : gen.plans request with e | plans
  · exact ⟨e, rfl⟩
  · -- the plan for an intent has found it by its name, and has added up its numbers
    have hall : ∀ v ∈ gen.graph.intents,
        (gen.graph.node v).key.variation = none ∧ (gen.graph.node v).QuotasFit := by
      intro v hv
      rw [mapM_plan_eq, mapM_eq_ok_iff] at hplans
      obtain ⟨p, -, hp⟩ := exists_right_of_forall₂ hplans hv
      obtain ⟨w, own, hw, hown, -⟩ := plan_eq_ok_iff.mp hp
      obtain ⟨rfl, hplain⟩ := Graph.eq_of_intent?_name hnames hv hw
      exact ⟨hplain, Node.quotasFit_of_ownAmount? hown⟩
    exact absurd ⟨fun v hv => (hall v hv).1, fun v hv => (hall v hv).2⟩ h

end Generator

end IntentGrammar
