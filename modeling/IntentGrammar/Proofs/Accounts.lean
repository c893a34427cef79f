import IntentGrammar.Proofs.Harvests
import IntentGrammar.Proofs.Interleavings
import IntentGrammar.Proofs.Shares
import IntentGrammar.Workers

/-!
# Accounts of a run

A run has been given plans, has delivered batches, and says in its summary what became of each
intent.  The accounts are in order if the three agree: the numbers are those of the utterances that
were delivered, what the streams have yielded is what was delivered, and intents are missing or
short only for the reasons that the summary gives (`IntentSummary.Accounts`, `RunSummary.Accounts`).

**Every run to a willing sink accounts for what it delivers** (`run_accounts_for_deliveries`),
wherever the sink cancels it.  Only one thing can keep such a run from starting: an intent for which
there is no plan (`Generator.exists_hinders`).
-/

namespace IntentGrammar

variable {τ : Type}

/-! ### What has been delivered -/

/-- The utterances of an intent that have been delivered for a part. -/
def delivered (log : List Batch) (intent : String) (part : Part) : List Utterance :=
  ofPart part (log.filter (·.intent = intent))

theorem length_flatMap_utterances (bs : List Batch) :
    (bs.flatMap (·.utterances)).length
      = (ofPart .training bs).length + (ofPart .testing bs).length := by
  induction bs with
  | nil => rfl
  | cons b bs ih =>
    have hcons (part : Part) : (ofPart part (b :: bs)).length
        = (if b.part = part then b.utterances.length else 0) + (ofPart part bs).length := by
      by_cases h : b.part = part <;> simp [ofPart, h]
    rw [List.flatMap_cons, List.length_append, ih, hcons, hcons]
    rcases b.part with _ | _
    · simp
      omega
    · simp
      omega

namespace Generator

variable {gen : Generator} {incremental : Bool} {h : Harvest gen.graph}

/-- The batches of an intent hold what it has yielded. -/
theorem ofPart_batches (part : Part) :
    ofPart part (gen.batches incremental h) = utterancesOf part h.yielded := by
  obtain ⟨e', hhands, hempty⟩ := (gen.emitter h.plan incremental).exists_hands_handed h.yielded
  have hbalance := hhands.balance part
  have hnothing : ((gen.emitter h.plan incremental).waiting part).toList = [] := by
    cases part <;> rfl
  rwa [hempty, hnothing, List.append_nil, List.nil_append] at hbalance

theorem intent_of_mem_batches {b : Batch} (hb : b ∈ gen.batches incremental h) :
    b.intent = h.plan.name := by
  obtain ⟨e', hhands, -⟩ := (gen.emitter h.plan incremental).exists_hands_handed h.yielded
  exact hhands.intents b hb

theorem delivered_batches {hs : List (Harvest gen.graph)} (hnames : (hs.map (·.plan.name)).Nodup)
    (hmem : h ∈ hs) (part : Part) :
    delivered (hs.flatMap (gen.batches incremental)) h.plan.name part
      = utterancesOf part h.yielded := by
  have hlog := filter_flatMap_eq (gen.batches incremental) Batch.intent (·.plan.name)
    (fun _ _ _ hb => intent_of_mem_batches hb) hnames hmem
  rw [delivered, hlog, ofPart_batches]

theorem length_utterances_batches :
    ((gen.batches incremental h).flatMap (·.utterances)).length = h.summary.total := by
  rw [length_flatMap_utterances, ofPart_batches, ofPart_batches]
  rfl

end Generator

/-! ### Accounts -/

/-- The summary of an intent accounts for what came of it and what has been delivered. -/
structure IntentSummary.Accounts {g : Graph} (log : List Batch) (h : Harvest g)
    (s : IntentSummary) : Prop where
  intent : s.intent = h.plan.name
  strategy : s.strategy = h.plan.strategy
  cancelled : s.cancelled = h.cancelled
  delivers (part : Part) : delivered log s.intent part = utterancesOf part h.yielded
  training : s.training = (delivered log s.intent .training).length
  testing : s.testing = (delivered log s.intent .testing).length
  /-- Fewer than requested are worth one warning, unless the intent was cancelled. -/
  warns {requested : Nat} : h.plan.requested = some requested → s.cancelled = false →
    s.training + s.testing < requested →
      s.warnings = [⟨s.intent, requested, s.training + s.testing⟩]
  quiet : s.warnings ≠ [] → s.cancelled = false ∧
    ∃ requested, h.plan.requested = some requested ∧ s.training + s.testing < requested

/-- The summary of a run accounts for the plans, what came of the intents and what has been
delivered. -/
structure RunSummary.Accounts (gen : Generator) (plans : List (Plan gen.graph))
    (hs : List (Harvest gen.graph)) (log : List Batch) (s : RunSummary) : Prop where
  seed : s.seed = gen.seed
  intents : List.Forall₂ (IntentSummary.Accounts log) hs s.intents
  /-- Nothing is delivered for an intent that the summary leaves out. -/
  summarised : ∀ b ∈ log, b.intent ∈ s.intents.map (·.intent)
  /-- What is yielded is what the plan comes to, or a first part of it if it is cancelled. -/
  yielded : ∀ h ∈ hs, h.yielded <+: (gen.outcome h.plan .never).1 ∧
    (h.cancelled = false → h.yielded = (gen.outcome h.plan .never).1)
  planned : hs.map (·.plan) <+: plans
  complete : s.cancelled = false → hs.map (·.plan) = plans
  before_last : ∀ i ∈ s.intents.dropLast, i.cancelled = false
  cancelled : s.cancelled = true ↔ ∃ i, s.intents.getLast? = some i ∧ i.cancelled = true
  ensureComplete : s.ensureComplete =
    if s.cancelled then .error (.cancelled (log.flatMap (·.utterances)).length) else .ok s

namespace Harvest

variable {g : Graph} {h : Harvest g} {log : List Batch}

theorem total_summary (h : Harvest g) : h.summary.total = h.yielded.length :=
  length_utterancesOf h.yielded

/-- The summary accounts for the intent if what has been delivered is what was yielded. -/
theorem accounts_summary
    (hlog : ∀ part, delivered log h.plan.name part = utterancesOf part h.yielded) :
    h.summary.Accounts log h where
  intent := rfl
  strategy := rfl
  cancelled := rfl
  delivers := hlog
  training := congrArg List.length (hlog .training).symm
  testing := congrArg List.length (hlog .testing).symm
  warns := by
    intro requested hrequested hopen hfewer
    have hwarns : (!h.cancelled && (utterancesOf .training h.yielded).length
        + (utterancesOf .testing h.yielded).length < requested) = true := by
      have hopen : h.cancelled = false := hopen
      rw [hopen]
      exact decide_eq_true hfewer
    simp only [summary, hrequested]
    rw [if_pos hwarns]
  quiet := by
    intro hwarned
    simp only [summary] at hwarned
    rcases hrequested : h.plan.requested with _ | requested
    · rw [hrequested] at hwarned
      exact absurd rfl hwarned
    · rw [hrequested] at hwarned
      simp only at hwarned
      split at hwarned
      · next hwarns =>
        rw [Bool.and_eq_true, Bool.not_eq_true', decide_eq_true_eq] at hwarns
        exact ⟨hwarns.1, requested, rfl, hwarns.2⟩
      · exact absurd rfl hwarned

end Harvest

namespace Generator

variable {gen : Generator} {sink : Sink τ} {plans : List (Plan gen.graph)}
  {hs : List (Harvest gen.graph)} {r r' : Receiving τ}

/-- What a run over plans says of them. -/
def summarise (gen : Generator) (hs : List (Harvest gen.graph)) : RunSummary :=
  { seed := gen.seed, intents := hs.map Harvest.summary, cancelled := hs.any (·.cancelled) }

theorem run_eq_of_plans (request : Request) (hplans : gen.plans request = .ok plans) :
    gen.run request sink = gen.summarise <$> gen.harvests sink plans := by
  rw [run, hplans]
  show (do
    let intents ← gen.runPlans sink plans
    pure (RunSummary.mk gen.seed intents (intents.any (·.cancelled)))) = _
  rw [runPlans_eq]
  simp only [map_eq_pure_bind, bind_assoc, pure_bind]
  congr 1
  funext hs
  rw [List.any_map]
  rfl

theorem run_of_plans_error {e : Error} (request : Request) (hplans : gen.plans request = .error e)
    (r : Receiving τ) : (gen.run request sink).run.run r = (.error e, r) := by
  rw [run, hplans]
  rfl

/-- A list that is put together from lists has as many utterances as they have. -/
theorem length_utterances_flatMap_batches (incremental : Bool) (hs : List (Harvest gen.graph)) :
    ((hs.flatMap (gen.batches incremental)).flatMap (·.utterances)).length
      = (gen.summarise hs).trainingTotal + (gen.summarise hs).testingTotal := by
  induction hs with
  | nil => rfl
  | cons h hs ih =>
    have htraining : (gen.summarise (h :: hs)).trainingTotal
        = h.summary.training + (gen.summarise hs).trainingTotal := rfl
    have htesting : (gen.summarise (h :: hs)).testingTotal
        = h.summary.testing + (gen.summarise hs).testingTotal := rfl
    rw [List.flatMap_cons, List.flatMap_append, List.length_append, ih, length_utterances_batches,
      htraining, htesting, IntentSummary.total]
    omega

/-- In a list in which only the last member can have a property, some member has it if the last
one does. -/
theorem exists_getLast?_of_any {α : Type} {p : α → Bool} {as : List α}
    (hothers : ∀ a ∈ as.dropLast, p a = false) :
    as.any p = true ↔ ∃ a, as.getLast? = some a ∧ p a = true := by
  rcases as.eq_nil_or_concat with rfl | ⟨front, last, rfl⟩
  · simp
  · rw [List.concat_eq_append, List.dropLast_concat] at hothers
    have hfront : front.any p = false := List.any_eq_false.mpr fun a ha => by simp [hothers a ha]
    simp [hfront]

/-- **The accounts of a run over plans** are in order. -/
theorem ReapsAll.accounts (h : ReapsAll plans sink r hs r')
    (hnames : (plans.map (·.name)).Nodup) :
    (gen.summarise hs).Accounts gen plans hs (hs.flatMap (gen.batches sink.incremental)) := by
  have hdistinct : (hs.map (·.plan.name)).Nodup := by
    have hprefix := h.planned.map (·.name)
    rw [List.map_map] at hprefix
    exact hnames.sublist hprefix.sublist
  exact {
    seed := rfl
    intents := by
      show List.Forall₂ _ hs (hs.map Harvest.summary)
      rw [List.forall₂_map_right_iff, List.forall₂_same]
      intro i hi
      exact Harvest.accounts_summary (delivered_batches hdistinct hi)
    summarised := by
      intro b hb
      obtain ⟨i, hi, hb⟩ := List.mem_flatMap.mp hb
      have hmem : i.summary ∈ (gen.summarise hs).intents := List.mem_map_of_mem hi
      rw [intent_of_mem_batches hb]
      exact List.mem_map_of_mem hmem
    yielded := fun i hi => ⟨h.first i hi, h.all i hi⟩
    planned := h.planned
    complete := by
      intro hopen
      exact h.complete fun i hi => by simpa using List.any_eq_false.mp hopen i hi
    before_last := by
      intro i hi
      have hlast : (gen.summarise hs).intents.dropLast = hs.dropLast.map Harvest.summary :=
        List.map_dropLast.symm
      rw [hlast] at hi
      obtain ⟨j, hj, rfl⟩ := List.mem_map.mp hi
      exact h.before_last j hj
    cancelled := by
      show hs.any (·.cancelled) = true ↔ _
      rw [exists_getLast?_of_any h.before_last]
      simp [summarise, Harvest.summary]
    ensureComplete := by
      rw [RunSummary.ensureComplete, length_utterances_flatMap_batches] }

end Generator

/-! ### The theorem -/

/-- **A run accounts for what it delivers**, to a sink that never refuses a batch, wherever the sink
cancels it, in batches of any size, while intents are generated or at their end.  `hs` is what came
of the intents, `log` is what the sink was given, and `s` is the summary.  There is no such run if
an intent has a variation, or numbers in its header whose sum does not fit into 64 bits: then
nothing is delivered, and the run fails or the program stops. -/
theorem run_accounts_for_deliveries (gen : Generator) (hnames : gen.graph.DistinctIntents)
    (request : Request) (sink : Sink τ) (hsink : sink.Willing) (r : Receiving τ) :
    (gen.Ready → ∃ plans hs log s r',
      gen.plans request = .ok plans ∧
      plans.map (·.intent) = gen.graph.intents ∧
      (gen.harvests sink plans).run.run r = (.ok hs, r') ∧
      (gen.run request sink).run.run r = (.ok s, r') ∧
      (gen.run request sink.recording).run.run ⟨(r.sink, []), r.cancellation⟩
        = (.ok s, ⟨(r'.sink, log), r'.cancellation⟩) ∧
      s.Accounts gen plans hs log) ∧
    (¬ (gen.graph.PlainIntents ∧ gen.graph.QuotasFit) → ∃ e, ∃ v ∈ gen.graph.intents,
      gen.graph.Hinders v e ∧ (gen.run request sink).run.run r = (.error e, r)) := by
  constructor
  · intro hready
    obtain ⟨plans, hplans⟩ := Generator.exists_plans hready.plain hready.quotas request
    have hplanned : (plans.map (·.name)).Nodup := by
      rw [Generator.names_of_plans_eq_ok hplans]
      exact hnames
    -- the run with a record yields the same as the one without
    obtain ⟨hs, ⟨⟨t, log⟩, c⟩, hreaps⟩ := Generator.exists_reapsAll hsink.recording plans
      ⟨(r.sink, []), r.cancellation⟩
    have hrun : (gen.harvests sink plans).run.run r = (.ok hs, ⟨t, c⟩) :=
      gen.follows_harvests sink.substitute_recording _ _ _ _ hreaps.run
    have hlog : log = hs.flatMap (gen.batches sink.incremental) := by
      have hgot := hreaps.got
      rw [Sink.after_recording] at hgot
      exact congrArg Prod.snd hgot
    refine ⟨plans, hs, log, gen.summarise hs, ⟨t, c⟩, hplans,
      Generator.intents_of_plans_eq_ok hnames hplans, hrun, ?_, ?_, ?_⟩
    · rw [Generator.run_eq_of_plans request hplans, run_map_of_ok hrun]
    · rw [Generator.run_eq_of_plans request hplans, run_map_of_ok hreaps.run]
    · rw [hlog]
      exact hreaps.accounts hplanned
  · intro hhindered
    obtain ⟨e, hplans⟩ := Generator.exists_plans_eq_error hnames hhindered request
    obtain ⟨v, hv, hhinders⟩ := Generator.exists_hinders hplans
    exact ⟨e, v, hv, hhinders, Generator.run_of_plans_error request hplans r⟩

/-! ### A run that is cut short -/

/-- The greetings, and a word to leave with. -/
def Grammar.courtesies : Grammar where
  source := ""
  definitions := Grammar.greetings.definitions ++ [
    { key := ⟨.intent, "leave", none⟩, arguments := [], line := 4
      alternatives := [{ elements := [.literal "goodbye" false], weight := none, line := 5 }] }]

/-- The network of that grammar. -/
def Network.courtesies : Network 2 := #v[
  { key := ⟨.intent, "greet", none⟩, arguments := [("training", "2"), ("testing", "1")]
    choices := [
      { steps := [.words ["hello"] false, .words ["there"] true], weight := none, line := 2 },
      { steps := [.words ["hello"] false], weight := none, line := 3 }] },
  { key := ⟨.intent, "leave", none⟩, arguments := []
    choices := [{ steps := [.words ["goodbye"] false], weight := none, line := 5 }] }]

/-- A generator for that grammar, which hands over every utterance by itself. -/
def Generator.courtesies : Generator where
  graph := ⟨2, .courtesies, Network.courtesies.counts, #v[[0.5, 0.5], [1.0]],
    Grammar.courtesies.contentHash⟩
  settings := { batchSize := 1 }
  seed := 7

/-- The plan for the greetings. -/
def Plan.greet : Plan Generator.courtesies.graph :=
  Generator.courtesies.planAt (0 : Fin 2) "greet" (some (.samples 3, 1)) {}

/-- The plan for the word to leave with. -/
def Plan.leave : Plan Generator.courtesies.graph :=
  Generator.courtesies.planAt (1 : Fin 2) "leave" none {}

theorem build_courtesies : Graph.build .courtesies 10000 = .ok Generator.courtesies.graph := by
  have hlink : link Grammar.courtesies.definitions = .ok Network.courtesies := by
    with_unfolding_all rfl
  have hprobabilities : Network.courtesies.probabilities 10000 = .ok #v[[0.5, 0.5], [1.0]] :=
    probabilities_eq_ok (by decide +kernel)
  have hcheck : Network.courtesies.check = .ok () := rfl
  exact build_eq_ok_iff.mpr ⟨_, hlink, _, hprobabilities, hcheck, rfl⟩

theorem distinct_courtesies : Generator.courtesies.graph.DistinctIntents := by
  show (List.map _ _).Nodup
  decide

theorem ready_courtesies : Generator.courtesies.Ready where
  plain := by
    show ∀ v ∈ _, _
    decide
  quotas := by
    show ∀ v ∈ _, _
    decide +kernel
  probability := by decide +kernel

theorem plans_courtesies : Generator.courtesies.plans {} = .ok [.greet, .leave] := rfl

/-- The sink that keeps every batch and cancels the run with it. -/
def Sink.satisfied : Sink (Array Batch) where
  accept b kept := (.acceptedLast, kept.push b)

/-- A stream begins with the first of its material. -/
theorem Generator.exists_next_start {gen : Generator} {plan : Plan gen.graph}
    (hwanted : 0 < plan.target) {u : Utterance} {us : List Utterance}
    (hmaterial : gen.material plan = u :: us) (split : Split) :
    ∃ s, (gen.start plan split).next (gen.pull? plan.intent) .never
        = (some (split.assign 0, u), s, .never) ∧ s.produced = 1 ∧ s.target = plan.target := by
  obtain ⟨found, s, read, hnext, hadvances⟩ := (read_start plan split).next rfl hwanted
  have hfound : found.toList.map (·.2) = [u] := by
    rw [hadvances.utterances, hmaterial, novelties_cons, List.take_succ_cons, List.take_zero]
  have hlength : found.toList.length = 1 := by simpa using congrArg List.length hfound
  have hlabel : found.toList.map (·.1) = [split.assign 0] := by
    rw [hadvances.labels, hlength]
    rfl
  have hproduced : s.produced = 1 := by
    rw [hadvances.after.produced, hadvances.yielded, hfound]
    rfl
  rcases found with _ | ⟨part, u'⟩
  · cases hfound
  · obtain rfl : u = u' := (List.head_eq_of_cons_eq hfound).symm
    obtain rfl : part = split.assign 0 := List.head_eq_of_cons_eq hlabel
    exact ⟨s, hnext, hproduced, hadvances.target⟩

/-- In batches of one an utterance is handed over at once, and nothing is left. -/
theorem Generator.exists_push_emitter {gen : Generator} (hbatch : gen.settings.batchSize = 1)
    (plan : Plan gen.graph) (part : Part) (u : Utterance) :
    ∃ e, (gen.emitter plan true).push part u = (some ⟨plan.name, 0, part, [u]⟩, e) ∧
      e.finish = [] := by
  rw [emitter, hbatch]
  cases part with
  | training => exact ⟨_, rfl, rfl⟩
  | testing => exact ⟨_, rfl, rfl⟩

/-- Where every utterance is handed over by itself, the first of several that are wanted is the only
one of its intent, which is cancelled behind it. -/
theorem Generator.run_harvest_satisfied {gen : Generator} {plan : Plan gen.graph}
    (hbatch : gen.settings.batchSize = 1) (hwanted : 1 < plan.target) {u : Utterance}
    {us : List Utterance} (hmaterial : gen.material plan = u :: us) :
    (gen.harvest plan Sink.satisfied).run.run ⟨#[], .never⟩
      = (.ok ⟨plan, [((gen.fitSplit plan .never).1.assign 0, u)], true⟩,
          ⟨#[⟨plan.name, 0, (gen.fitSplit plan .never).1.assign 0, [u]⟩], .now⟩) := by
  have hstream : gen.stream plan .never
      = (gen.start plan (gen.fitSplit plan .never).1, .never) := by
    rw [stream, fitSplit_never]
  generalize (gen.fitSplit plan .never).1 = split at hstream ⊢
  obtain ⟨s, hnext, hproduced, htarget⟩ :=
    exists_next_start (Nat.zero_lt_of_lt hwanted) hmaterial split
  -- the batch cancels the run, so the next search finds nothing
  obtain ⟨s', hnow, hcancelled⟩ := next_now (gen.pull? plan.intent) (s := s) (by omega)
  obtain ⟨e, hpush, hfinish⟩ := exists_push_emitter hbatch plan (split.assign 0) u
  have hdeliver : (List.forM [⟨plan.name, 0, split.assign 0, [u]⟩] Sink.satisfied.deliver).run.run
      ⟨#[], .never⟩ = (.ok (), ⟨#[⟨plan.name, 0, split.assign 0, [u]⟩], .now⟩) := rfl
  have hrest (n : Nat) (kept : Array Batch) :
      (gen.feed plan Sink.satisfied (n + 1) s e).run.run ⟨kept, .now⟩
        = (.ok (s', e, []), ⟨kept, .now⟩) := by
    rw [feed, run_get_bind, hnow]
    rfl
  obtain ⟨n, hn⟩ := Nat.exists_eq_add_of_le' hwanted
  have hfeed : (gen.feed plan Sink.satisfied (n + 1 + 1) (gen.start plan split)
      (gen.emitter plan true)).run.run ⟨#[], .never⟩
        = (.ok (s', e, [(split.assign 0, u)]),
            ⟨#[⟨plan.name, 0, split.assign 0, [u]⟩], .now⟩) := by
    rw [feed, run_get_bind, hnext, run_set_bind]
    simp only [hpush, Sink.forM_toList, Option.toList_some]
    rw [run_bind_of_ok hdeliver, run_bind_of_ok (hrest n _)]
    rfl
  have hcount : (gen.start plan split).target - (gen.start plan split).produced = n + 1 + 1 := hn
  have hmode : Sink.satisfied.incremental = true := rfl
  rw [harvest, run_get_bind]
  simp only [hstream, hmode]
  rw [run_set_bind, hcount, run_bind_of_ok hfeed]
  simp only [hfinish, hcancelled]
  rfl

/-- The sink cancels the run with the first greeting.  So of the two plans only the first is
summarised, as cancelled, and that greeting is all that has been delivered. -/
theorem accounts_of_courtesies : Graph.build .courtesies 10000 = .ok Generator.courtesies.graph ∧
    Generator.courtesies.graph.DistinctIntents ∧ Generator.courtesies.Ready ∧
    Sink.satisfied.Willing ∧ Generator.courtesies.plans {} = .ok [.greet, .leave] ∧
    ∃ hs log s part,
      (Generator.courtesies.run {} Sink.satisfied).run.run ⟨#[], .never⟩
        = (.ok s, ⟨#[⟨"greet", 0, part, [wordTokens ["hello", "there"]]⟩], .now⟩) ∧
      s.Accounts Generator.courtesies [.greet, .leave] hs log ∧
      hs.map (·.plan) = [.greet] ∧
      s.intents.map (fun i => (i.intent, i.total, i.cancelled)) = [("greet", 1, true)] ∧
      s.cancelled = true := by
  have hsink : Sink.satisfied.Willing := nofun
  obtain ⟨hruns, -⟩ := run_accounts_for_deliveries Generator.courtesies distinct_courtesies {}
    Sink.satisfied hsink ⟨#[], .never⟩
  obtain ⟨plans, hs, log, s, r', hplans, -, hharvests, hrun, -, haccounts⟩ := hruns ready_courtesies
  obtain rfl : [.greet, .leave] = plans := Except.ok.inj (plans_courtesies.symm.trans hplans)
  have hmaterial : Generator.courtesies.material .greet
      = wordTokens ["hello", "there"] :: [wordTokens ["hello"], wordTokens ["hello"]] := by
    decide +kernel
  have hwanted : 1 < Plan.greet.target := by decide +kernel
  have hfirst := Generator.run_harvest_satisfied rfl hwanted hmaterial
  generalize (Generator.courtesies.fitSplit Plan.greet .never).1.assign 0 = part at hfirst
  -- behind an intent that is cancelled the run stops
  have hcut : (Generator.courtesies.harvests Sink.satisfied [.greet, .leave]).run.run ⟨#[], .never⟩
      = (.ok [⟨.greet, [(part, wordTokens ["hello", "there"])], true⟩],
          ⟨#[⟨"greet", 0, part, [wordTokens ["hello", "there"]]⟩], .now⟩) := by
    rw [Generator.harvests, run_bind_of_ok hfirst, if_pos rfl]
    rfl
  have hsame := hcut.symm.trans hharvests
  obtain rfl : _ = hs := Except.ok.inj (congrArg Prod.fst hsame)
  obtain rfl : _ = r' := congrArg Prod.snd hsame
  have hsummary := hrun
  rw [Generator.run_eq_of_plans {} plans_courtesies, run_map_of_ok hcut] at hsummary
  obtain rfl : Generator.courtesies.summarise _ = s := Except.ok.inj (congrArg Prod.fst hsummary)
  exact ⟨build_courtesies, distinct_courtesies, ready_courtesies, hsink, plans_courtesies, _, log,
    _, part, hrun, haccounts, rfl,
    congrArg (fun total => [("greet", total, true)]) (Harvest.total_summary _), rfl⟩

/-! ### Intents without plans -/

/-- A greeting that is declared as a variation of an intent. -/
def Grammar.casual : Grammar where
  source := ""
  definitions := [
    { key := ⟨.intent, "greet", some "casual"⟩, arguments := [], line := 1
      alternatives := [{ elements := [.literal "hi" false], weight := none, line := 2 }] }]

/-- The network of that grammar. -/
def Network.casual : Network 1 := #v[
  { key := ⟨.intent, "greet", some "casual"⟩, arguments := []
    choices := [{ steps := [.words ["hi"] false], weight := none, line := 2 }] }]

/-- A generator for that grammar. -/
def Generator.casual : Generator where
  graph := ⟨1, .casual, Network.casual.counts, #v[[1.0]], Grammar.casual.contentHash⟩
  settings := {}
  seed := 1

theorem build_casual : Graph.build .casual 10000 = .ok Generator.casual.graph := by
  have hlink : link Grammar.casual.definitions = .ok Network.casual := by with_unfolding_all rfl
  have hprobabilities : Network.casual.probabilities 10000 = .ok #v[[1.0]] :=
    probabilities_eq_ok (by decide +kernel)
  have hcheck : Network.casual.check = .ok () := rfl
  exact build_eq_ok_iff.mpr ⟨_, hlink, _, hprobabilities, hcheck, rfl⟩

theorem plans_casual : Generator.casual.plans {} = .error (.unknownIntent "greet") := rfl

/-- A greeting whose header asks for one more utterance than can be counted. -/
def Grammar.excessive : Grammar where
  source := ""
  definitions := [
    { key := ⟨.intent, "greet", none⟩
      arguments := [("training", "18446744073709551615"), ("testing", "1")], line := 1
      alternatives := [{ elements := [.literal "hi" false], weight := none, line := 2 }] }]

/-- The network of that grammar. -/
def Network.excessive : Network 1 := #v[
  { key := ⟨.intent, "greet", none⟩
    arguments := [("training", "18446744073709551615"), ("testing", "1")]
    choices := [{ steps := [.words ["hi"] false], weight := none, line := 2 }] }]

/-- A generator for that grammar. -/
def Generator.excessive : Generator where
  graph := ⟨1, .excessive, Network.excessive.counts, #v[[1.0]], Grammar.excessive.contentHash⟩
  settings := {}
  seed := 1

theorem build_excessive : Graph.build .excessive 10000 = .ok Generator.excessive.graph := by
  have hlink : link Grammar.excessive.definitions = .ok Network.excessive := by
    with_unfolding_all rfl
  have hprobabilities : Network.excessive.probabilities 10000 = .ok #v[[1.0]] :=
    probabilities_eq_ok (by decide +kernel)
  have hcheck : Network.excessive.check = .ok () := rfl
  exact build_eq_ok_iff.mpr ⟨_, hlink, _, hprobabilities, hcheck, rfl⟩

theorem plans_excessive : Generator.excessive.plans {} = .error (.panic .addition) := by
  have hexcess : ¬ (Generator.excessive.graph.node (0 : Fin 1)).QuotasFit := by decide +kernel
  have hintent : Generator.excessive.graph.intent? "greet" = some (0 : Fin 1) := rfl
  have hplans : Generator.excessive.plans {}
      = Generator.excessive.plan "greet" {} >>= fun plan => pure [plan] := rfl
  rw [hplans, plan_of_not_fits hintent hexcess]
  rfl

/-- Where the only intent has a variation, or asks for too much, no run has a result, though the
names of intents are distinct and the sink takes every batch. -/
theorem no_run_without_plans :
    (Graph.build .casual 10000 = .ok Generator.casual.graph ∧
      Generator.casual.graph.DistinctIntents ∧ Batch.collector.Willing ∧
      ∀ s r', (Generator.casual.run {} Batch.collector).run.run ⟨#[], .never⟩ ≠ (.ok s, r')) ∧
    Graph.build .excessive 10000 = .ok Generator.excessive.graph ∧
      Generator.excessive.graph.DistinctIntents ∧ Generator.excessive.graph.PlainIntents ∧
      ∀ s r', (Generator.excessive.run {} Batch.collector).run.run ⟨#[], .never⟩ ≠ (.ok s, r') := by
  refine ⟨⟨build_casual, by show (List.map _ _).Nodup; decide, nofun, ?_⟩,
    build_excessive, by show (List.map _ _).Nodup; decide, by show ∀ v ∈ _, _; decide, ?_⟩
  · intro s r' hrun
    rw [Generator.run_of_plans_error {} plans_casual] at hrun
    cases congrArg Prod.fst hrun
  · intro s r' hrun
    rw [Generator.run_of_plans_error {} plans_excessive] at hrun
    cases congrArg Prod.fst hrun

end IntentGrammar
