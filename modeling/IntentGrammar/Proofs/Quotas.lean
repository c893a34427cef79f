import IntentGrammar.Proofs.Accounts
import Mathlib.Algebra.Order.Round
import Mathlib.Data.Rat.Floor

/-!
# Numbers that a header asks for

The header of an intent may ask for numbers of utterances for training and for testing.  The plan is
then for both together, or for as many expansions as there are if these are fewer
(`Cardinality.within`), and it is split by the number for testing.

What is generated is split in the same share as the plan (**`header_quotas`**), rounded to the
nearest number, a half upwards: no matter whether utterances are missing because several expansions
are spelled alike or because the draws are used up.  So the share is that of the header wherever the
intent has as many expansions as the header asks for.  It is another one if there are fewer: the
plan is cut to their number before it is split, and all that is cut is for training
(`share_of_survey`).
-/

namespace IntentGrammar

variable {τ : Type}

/-! ### Shares -/

namespace Split

/-- The share is rounded to the nearest number. -/
theorem rounded_share_eq (test total n : Nat) :
    (((2 * test * n + total) / (2 * total) : Nat) : ℤ) = round ((test * n : ℚ) / total) := by
  rcases Nat.eq_zero_or_pos total with rfl | htotal
  · simp
  · have hhalf : (test * n : ℚ) / total + 1 / 2
        = ((2 * test * n + total : Nat) : ℚ) / ((2 * total : Nat) : ℚ) := by
      push_cast
      field_simp
    rw [round_eq, hhalf, Rat.floor_natCast_div_natCast, Int.natCast_ediv]

/-- A split that is fitted keeps the share. -/
theorem test_fitted_eq (s : Split) {n : Nat} (h : n ≤ s.total) :
    ((s.fitted n).test : ℤ) = round ((s.test * n : ℚ) / s.total) := by
  rcases Nat.eq_zero_or_pos s.test with htest | htest
  · rw [s.test_fitted_of_test_eq_zero htest, htest]
    simp
  · rcases Nat.eq_or_lt_of_le h with rfl | hlt
    · have htotal : (s.total : ℚ) ≠ 0 := by
        have hle := s.test_le_total
        exact_mod_cast (show s.total ≠ 0 by omega)
      rw [s.test_fitted_total, mul_div_cancel_right₀ _ htotal, round_natCast]
    · rw [s.test_fitted_of_lt hlt htest, rounded_share_eq]

end Split

theorem testing_eq_length (xs : List Labelled) :
    testing xs = (utterancesOf .testing xs).length := by
  induction xs with
  | nil => rfl
  | cons x xs ih =>
    obtain ⟨_ | _, u⟩ := x
    · exact ih
    · rw [utterancesOf_cons, if_pos rfl, List.length_cons, ← ih, testing, List.map_cons,
        List.count_cons_self, testing]

namespace Generator

variable {gen : Generator} {name : String} {request : Request} {plan : Plan gen.graph}

/-- What comes of a plan is split in its share. -/
theorem testing_outcome (hplan : gen.plan name request = .ok plan) :
    (gen.outcome plan .never).1.length ≤ plan.split.total ∧
      (testing (gen.outcome plan .never).1 : ℤ) = round
        ((plan.split.test * (gen.outcome plan .never).1.length : ℚ) / plan.split.total) := by
  have hle : (gen.outcome plan .never).1.length ≤ plan.split.total :=
    length_rest_start plan (.none plan.target) ▸ length_rest_start_le hplan _
  obtain ⟨htotal, hfits⟩ := plan.split.total_fitted hle
  obtain ⟨htesting, -⟩ := testing_take_eq (labels_outcome plan) htotal hfits
  refine ⟨hle, ?_⟩
  rw [htesting, Split.test_fitted_eq _ hle]

/-- An intent that has been generated, and has not been cancelled, is split in the share of its
plan. -/
theorem testing_of_run {sink : Sink τ} {r r' : Receiving τ} {s : IntentSummary}
    (hplan : gen.plan name request = .ok plan)
    (hrun : (gen.generateIntent plan sink).run.run r = (.ok s, r')) :
    s.total ≤ plan.split.total ∧
      (s.cancelled = false →
        (s.testing : ℤ) = round ((plan.split.test * s.total : ℚ) / plan.split.total)) := by
  obtain ⟨h, hreaps, rfl⟩ := exists_reaps_of_run hrun
  obtain ⟨hle, htesting⟩ := testing_outcome hplan
  have htotal : h.summary.total = h.yielded.length := h.total_summary
  constructor
  · rw [htotal]
    exact hreaps.first.length_le.trans hle
  · intro hopen
    have hall := hreaps.all hopen
    rw [← hall, testing_eq_length, ← htotal] at htesting
    exact htesting

/-- Without cancellation an intent comes to the first novelties of its material. -/
theorem total_fullHarvest (plan : Plan gen.graph) : (gen.fullHarvest plan).summary.total
    = ((novelties (gen.material plan)).take plan.target).length := by
  rw [← utterances_outcome, List.length_map]
  exact Harvest.total_summary _

end Generator

/-! ### What a header asks for -/

/-- A number, or as many as there are expansions if these are fewer. -/
def Cardinality.within (count : Cardinality) (n : Nat) : Nat := count.finite?.elim n (min n)

theorem Cardinality.within_le (count : Cardinality) (n : Nat) : count.within n ≤ n := by
  rw [within]
  rcases count.finite? with _ | paths
  · exact le_rfl
  · exact Nat.min_le_left n paths

theorem Cardinality.within_eq {count : Cardinality} {n : Nat}
    (h : ∀ paths, count.finite? = some paths → n ≤ paths) : count.within n = n := by
  rw [within]
  rcases hfinite : count.finite? with _ | paths
  · rfl
  · exact Nat.min_eq_left (h paths hfinite)

/-- For a number of utterances as many are expected as there can be expansions. -/
theorem expected_chooseStrategy_samples (ceiling : Nat) (count : Cardinality) (n : Nat) :
    (chooseStrategy ceiling count (.samples n)).1.expected
      (chooseStrategy ceiling count (.samples n)).2.1 = count.within n := by
  rw [chooseStrategy, Cardinality.within]
  rcases count.finite? with _ | paths
  · rfl
  · by_cases hle : paths ≤ n
    · rw [Option.filter_some_pos (by simpa using hle)]
      rfl
    · rw [Option.filter_some_neg (by simpa using hle)]
      exact (Nat.min_eq_left (Nat.le_of_not_le hle)).symm

/-- The plan is split by the number for testing after it has been cut to what there is. -/
theorem split_planAt_samples (gen : Generator) (v : Fin gen.graph.size) (name : String)
    (n test : Nat) (request : Request) :
    (gen.planAt v name (some (.samples n, test)) request).split
      = Split.fixed ((gen.graph.count v).within n) test := by
  rw [← expected_chooseStrategy_samples gen.settings.exhaustiveCeiling]
  rfl

/-! ### The theorem -/

/-- **An intent whose header asks for numbers**, the sum of which fits, has a plan.  It yields at
most as many utterances as the header asks for and as there are expansions.  Unless it is cancelled
they are split in the share of its plan.  Where there are as many expansions as the header asks for,
this is the share of the header, whatever the reason for which utterances are missing. -/
theorem header_quotas {gen : Generator} {name : String} {v : Fin gen.graph.size}
    (hintent : gen.graph.intent? name = some v)
    (hquotas : 1 ≤ (gen.graph.node v).trainingQuota + (gen.graph.node v).testingQuota)
    (hfits : (gen.graph.node v).QuotasFit) (request : Request) (sink : Sink τ) (r : Receiving τ) :
    let training := (gen.graph.node v).trainingQuota
    let test := (gen.graph.node v).testingQuota
    let room := (gen.graph.count v).within (training + test)
    ∃ plan, gen.plan name request = .ok plan ∧ plan.intent = v ∧ room ≤ training + test ∧
    (sink.Willing → ∃ s r', (gen.generateIntent plan sink).run.run r = (.ok s, r')) ∧
    ∀ s r', (gen.generateIntent plan sink).run.run r = (.ok s, r') →
      s.total ≤ room ∧
      (s.cancelled = false →
        (s.testing : ℤ) = round (((min test room : Nat) * s.total : ℚ) / room)) ∧
      (s.cancelled = false →
        (∀ paths, (gen.graph.count v).finite? = some paths → training + test ≤ paths) →
          (s.testing : ℤ) = round ((test * s.total : ℚ) / (training + test : Nat)) ∧
          (s.total = training + test → s.testing = test)) := by
  intro training test room
  let plan := gen.planAt v name (some (.samples (training + test), test)) request
  have hplan : gen.plan name request = .ok plan :=
    plan_eq_ok_iff.mpr ⟨v, _, hintent, Node.ownAmount?_eq_some hquotas hfits, rfl⟩
  have hsplit : plan.split = Split.fixed room test := split_planAt_samples gen v name _ test request
  refine ⟨plan, hplan, rfl, Cardinality.within_le _ _, fun hsink => ?_, fun s r' hrun => ?_⟩
  · obtain ⟨h, r', hreaps⟩ := Generator.exists_reaps hsink plan r
    exact ⟨h.summary, r', by rw [Generator.generateIntent_eq, run_map_of_ok hreaps.run]⟩
  · obtain ⟨htotal, htesting⟩ := Generator.testing_of_run hplan hrun
    rw [hsplit] at htotal htesting
    refine ⟨htotal, htesting, fun hopen hpaths => ?_⟩
    have hroom : room = training + test := Cardinality.within_eq hpaths
    have htest : min test (training + test) = test :=
      Nat.min_eq_left (Nat.le_add_left test training)
    have hshare := htesting hopen
    simp only [Split.fixed, hroom, htest] at hshare
    refine ⟨hshare, fun hall => ?_⟩
    have hpositive : ((training + test : Nat) : ℚ) ≠ 0 := by
      exact_mod_cast (show training + test ≠ 0 by omega)
    rw [hall, mul_div_cancel_right₀ _ hpositive, round_natCast] at hshare
    exact_mod_cast hshare

/-- Two of the three greetings can be told apart, and one of them is for testing. -/
theorem quotas_of_greetings : Generator.greetings.graph.intent? "greet" = some (0 : Fin 1) ∧
    (Generator.greetings.graph.node (0 : Fin 1)).trainingQuota = 2 ∧
    (Generator.greetings.graph.node (0 : Fin 1)).testingQuota = 1 ∧
    Generator.greetings.plan "greet" {} = .ok Plan.greetings ∧
    ∃ s r',
      (Generator.greetings.generateIntent Plan.greetings Batch.collector).run.run ⟨#[], .never⟩
        = (.ok s, r') ∧
      s.cancelled = false ∧ s.total = 2 ∧ s.testing = 1 := by
  have hintent : Generator.greetings.graph.intent? "greet" = some (0 : Fin 1) := rfl
  have htraining : (Generator.greetings.graph.node (0 : Fin 1)).trainingQuota = 2 := by
    decide +kernel
  have htest : (Generator.greetings.graph.node (0 : Fin 1)).testingQuota = 1 := by
    decide +kernel
  have hpaths : (Generator.greetings.graph.count (0 : Fin 1)).finite? = some 3 := by
    decide +kernel
  have hsteady : Batch.collector.Steady := fun _ _ => rfl
  have hrun := Generator.run_generateIntent_of_steady hsteady Plan.greetings #[]
  have htotal : (Generator.greetings.fullHarvest Plan.greetings).summary.total = 2 := by
    rw [Generator.total_fullHarvest]
    decide +kernel
  obtain ⟨plan, hplan, -, -, -, hshares⟩ := header_quotas hintent
    (by rw [htraining, htest]; decide) (by decide +kernel) {} Batch.collector ⟨#[], .never⟩
  obtain rfl : Plan.greetings = plan := Except.ok.inj hplan
  obtain ⟨-, -, hshare⟩ := hshares _ _ hrun
  rw [htraining, htest, hpaths] at hshare
  obtain ⟨htesting, -⟩ := hshare rfl (by rintro paths ⟨⟩; decide)
  rw [htotal] at htesting
  refine ⟨hintent, htraining, htest, hplan, _, _, hrun, rfl, htotal, ?_⟩
  norm_num [round_eq] at htesting
  exact_mod_cast htesting

/-! ### Fewer expansions than a header asks for -/

/-- Two answers, of which the header wants three for training and two for testing. -/
def Grammar.survey : Grammar where
  source := ""
  definitions := [
    { key := ⟨.intent, "answer", none⟩, arguments := [("training", "3"), ("testing", "2")]
      line := 1
      alternatives := [
        { elements := [.literal "yes" false], weight := none, line := 2 },
        { elements := [.literal "no" false], weight := none, line := 3 }] }]

/-- The network of that grammar. -/
def Network.survey : Network 1 := #v[
  { key := ⟨.intent, "answer", none⟩, arguments := [("training", "3"), ("testing", "2")]
    choices := [
      { steps := [.words ["yes"] false], weight := none, line := 2 },
      { steps := [.words ["no"] false], weight := none, line := 3 }] }]

/-- A generator for that grammar. -/
def Generator.survey : Generator where
  graph := ⟨1, .survey, Network.survey.counts, .replicate 1 [0.5, 0.5], Grammar.survey.contentHash⟩
  settings := {}
  seed := 1

/-- The plan for its intent. -/
def Plan.survey : Plan Generator.survey.graph :=
  Generator.survey.planAt (Fin.last 0 : Fin 1) "answer" (some (.samples 5, 2)) {}

theorem build_survey : Graph.build .survey 10000 = .ok Generator.survey.graph := by
  have hlink : link Grammar.survey.definitions = .ok Network.survey := by with_unfolding_all rfl
  have hprobabilities : Network.survey.probabilities 10000 = .ok (.replicate 1 [0.5, 0.5]) :=
    probabilities_eq_ok (by decide +kernel)
  have hcheck : Network.survey.check = .ok () := rfl
  exact build_eq_ok_iff.mpr ⟨_, hlink, _, hprobabilities, hcheck, rfl⟩

/-- The plan is cut to two utterances, and both are for testing; in the share of the header it would
be one. -/
theorem share_of_survey : Graph.build .survey 10000 = .ok Generator.survey.graph ∧
    Generator.survey.plan "answer" {} = .ok Plan.survey ∧
    (Generator.survey.graph.node Plan.survey.intent).trainingQuota = 3 ∧
    (Generator.survey.graph.node Plan.survey.intent).testingQuota = 2 ∧
    ∃ s r', (Generator.survey.generateIntent Plan.survey Batch.collector).run.run ⟨#[], .never⟩
        = (.ok s, r') ∧
      s.cancelled = false ∧ s.total = 2 ∧ s.testing = 2 ∧
      round ((2 * s.total : ℚ) / (3 + 2 : Nat)) = 1 := by
  have hplan : Generator.survey.plan "answer" {} = .ok Plan.survey := rfl
  have htotal : (Generator.survey.fullHarvest Plan.survey).summary.total = 2 := by
    rw [Generator.total_fullHarvest]
    decide +kernel
  have hlength : (Generator.survey.outcome Plan.survey .never).1.length = 2 :=
    (Harvest.total_summary _).symm.trans htotal
  obtain ⟨-, htesting⟩ := Generator.testing_outcome hplan
  have htest : Plan.survey.split.test = 2 := by decide +kernel
  have hsplit : Plan.survey.split.total = 2 := by decide +kernel
  rw [hlength, htest, hsplit, testing_eq_length] at htesting
  have hsteady : Batch.collector.Steady := fun _ _ => rfl
  have hrun := Generator.run_generateIntent_of_steady hsteady Plan.survey #[]
  refine ⟨build_survey, hplan, by decide +kernel, by decide +kernel, _, _, hrun, rfl, htotal,
    ?_, ?_⟩
  · norm_num at htesting
    exact_mod_cast htesting
  · rw [htotal]
    norm_num [round_eq]

end IntentGrammar
