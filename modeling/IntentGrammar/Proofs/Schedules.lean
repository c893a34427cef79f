import IntentGrammar.Proofs.Channels
import IntentGrammar.Proofs.Datasets
import IntentGrammar.Proofs.Refusals

/-!
# Any schedule of the workers

On workers the intents are generated side by side, and their batches reach the sink in some order.
Nothing depends on which: without cancellation an intent comes to the same by itself as in a run
(`Generator.job_never`), its batches carry its name, and so they can be told apart from all others.

**A run on workers agrees with a run in order** (`schedules_agree`): each intent is handed over in
the same batches, a data set is filled in the same way, because batches of different intents can be
exchanged (`Dataset.accept_comm`), and the report is on the same summary.  Only where workers or
places on the way are too many is there no such run (`WorkerSettings.setUp_eq_error`).
-/

namespace IntentGrammar

variable {τ : Type}

/-! ### Settings of the workers -/

namespace WorkerSettings

variable {w : WorkerSettings}

theorem fault?_eq_none (hworkers : 1 ≤ w.workers) (hcapacity : 1 ≤ w.channelCapacity) :
    w.fault? = none := by
  rw [fault?, if_neg (by omega), if_neg (by omega)]

theorem setUp_eq_ok (hworkers : w.workers ≤ maxPlaces) (hcapacity : w.channelCapacity ≤ maxPlaces) :
    w.setUp = .ok () := by
  rw [setUp, checked_bind_of_le hworkers, checked_bind_of_le hcapacity]
  rfl

theorem setUp_eq_error (h : maxPlaces < w.workers ∨ maxPlaces < w.channelCapacity) :
    w.setUp = .error .places := by
  rw [setUp]
  rcases Nat.lt_or_ge maxPlaces w.workers with hworkers | hworkers
  · rw [checked_bind_of_lt hworkers]
  · have hcapacity : maxPlaces < w.channelCapacity := by omega
    rw [checked_bind_of_le hworkers, checked_bind_of_lt hcapacity]

end WorkerSettings

/-! ### Without cancellation -/

namespace Generator

variable {gen : Generator} {plans : List (Plan gen.graph)} {sink : Sink τ} {request : Request}

/-- The job of a plan without cancellation. -/
def fullJob (gen : Generator) (plan : Plan gen.graph) : Job :=
  ⟨plan.name, gen.fullBatches true plan, .ok (gen.fullHarvest plan).summary⟩

/-- **A run to a steady sink** generates all intents. -/
theorem run_of_steady (hsink : sink.Steady) (hplans : gen.plans request = .ok plans) (s : τ) :
    (gen.run request sink).run.run ⟨s, .never⟩
      = (.ok (gen.summarise (plans.map gen.fullHarvest)),
          ⟨sink.after s (plans.flatMap (gen.fullBatches sink.incremental)), .never⟩) := by
  rw [run_eq_of_plans request hplans, run_map_of_ok (run_harvests_of_steady hsink plans s)]

theorem after_collector (kept : Array Batch) (bs : List Batch) :
    Batch.collector.after kept bs = kept ++ bs.toArray := by
  induction bs generalizing kept with
  | nil => exact Array.append_empty.symm
  | cons b bs ih =>
    show Batch.collector.after (kept.push b) bs = _
    rw [ih]
    simp

/-- **An intent by itself** comes to the same as in a run. -/
theorem job_never (plan : Plan gen.graph) :
    (gen.job plan).run .never = (gen.fullJob plan, .never) := by
  have hsteady : Batch.collector.Steady := fun _ _ => rfl
  have hrun : (gen.generateIntent plan Batch.collector).run.run ⟨#[], .never⟩
      = (.ok (gen.fullHarvest plan).summary, ⟨(gen.fullBatches true plan).toArray, .never⟩) := by
    rw [run_generateIntent_of_steady hsteady, after_collector, Array.empty_append]
    rfl
  let ended := (gen.generateIntent plan Batch.collector).run.run ⟨#[], .never⟩
  show (Job.mk plan.name ended.2.sink.toList ended.1, ended.2.cancellation) = _
  rw [show ended = _ from hrun]
  rfl

theorem jobs_never (plans : List (Plan gen.graph)) :
    (plans.mapM gen.job).run .never = (plans.map gen.fullJob, .never) := by
  induction plans with
  | nil => rfl
  | cons plan plans ih =>
    rw [List.mapM_cons, StateT.run_bind, job_never]
    show ((plans.mapM gen.job >>= fun jobs => pure (_ :: jobs)).run .never) = _
    rw [StateT.run_bind, ih]
    rfl

/-! ### Runs on workers -/

theorem run_receive_of_takes {s : τ} {bs : List Batch} (htakes : sink.Takes s bs) :
    (sink.receive bs).run.run ⟨s, .never⟩ = (.ok (), ⟨sink.after s bs, .never⟩) := by
  rw [Sink.receive, run_get_bind, (Sink.brings_forM sink bs s).1 htakes]
  rfl

theorem run_finish_of_close {r : Receiving τ} (hclose : (sink.close r.sink).1 = none) :
    sink.finish.run.run r = (.ok (), ⟨(sink.close r.sink).2, r.cancellation⟩) := by
  rw [Sink.finish, run_get_bind]
  rcases hend : sink.close r.sink with ⟨_ | reason, s⟩
  · rfl
  · rw [hend] at hclose
    cases hclose

/-- The job that an intent has been. -/
def jobOf (gen : Generator) (h : Harvest gen.graph) : Job :=
  ⟨h.plan.name, gen.batches true h, .ok h.summary⟩

/-- The report on jobs none of which has failed. -/
theorem ofJobs_jobOf (hs : List (Harvest gen.graph)) :
    Report.ofJobs gen.seed (hs.map gen.jobOf) = ⟨gen.summarise hs, []⟩ := by
  have hintents : (hs.map gen.jobOf).filterMap (·.outcome.toOption)
      = hs.map Harvest.summary := by
    rw [List.filterMap_map, ← List.filterMap_eq_map]
    rfl
  have hcancelled : (hs.map Harvest.summary).any (·.cancelled) = hs.any (·.cancelled) := by
    rw [List.any_map]
    rfl
  rw [Report.ofJobs, hintents, hcancelled]
  congr 1
  rw [List.filterMap_map, List.filterMap_eq_nil_iff]
  exact fun _ _ => rfl

/-- A run on workers without cancellation, to a sink that accepts what it gets. -/
theorem runOnWorkers_of_takes {workers : WorkerSettings} (hworkers : workers.fault? = none)
    (hsetUp : workers.setUp = .ok ()) (arrange : List (List Batch) → List Batch)
    (hplans : gen.plans request = .ok plans) {s t : τ}
    (htakes : sink.Takes s (arrange (plans.map (gen.fullBatches true))))
    (hclose : sink.close (sink.after s (arrange (plans.map (gen.fullBatches true)))) = (none, t)) :
    (gen.runOnWorkers workers request sink arrange).run.run ⟨s, .never⟩
      = (.ok ⟨gen.summarise (plans.map gen.fullHarvest), []⟩, ⟨t, .never⟩) := by
  have hjobs : (gen.runJobs plans : Working τ _).run.run ⟨s, .never⟩
      = (.ok (plans.map gen.fullJob), ⟨s, .never⟩) := by
    have hrun : (plans.mapM gen.job).run (Receiving.mk s .never).cancellation
        = (plans.map gen.fullJob, .never) := jobs_never plans
    rw [runJobs, run_get_bind, hrun]
    rfl
  have hstart : (gen.runOnWorkers workers request sink arrange).run.run ⟨s, .never⟩
      = (gen.runJobs plans >>= fun jobs => do
          sink.receive (arrange (jobs.map (·.batches)))
          sink.finish
          return Report.ofJobs gen.seed jobs).run.run ⟨s, .never⟩ := by
    rw [runOnWorkers, hworkers, hplans, hsetUp]
    rfl
  have hbatches : (plans.map gen.fullJob).map (·.batches) = plans.map (gen.fullBatches true) := by
    rw [List.map_map]
    rfl
  have hreport : Report.ofJobs gen.seed (plans.map gen.fullJob)
      = ⟨gen.summarise (plans.map gen.fullHarvest), []⟩ := by
    rw [← ofJobs_jobOf, List.map_map]
    rfl
  have hend := run_finish_of_close
    (r := ⟨sink.after s (arrange (plans.map (gen.fullBatches true))), .never⟩)
    (congrArg Prod.fst hclose)
  rw [hstart, run_bind_of_ok hjobs, hbatches, run_bind_of_ok (run_receive_of_takes htakes),
    run_bind_of_ok hend, hreport, hclose]
  rfl

/-- A run on workers without cancellation, to a sink that never fails. -/
theorem runOnWorkers_of_steady {workers : WorkerSettings} (hworkers : workers.fault? = none)
    (hsetUp : workers.setUp = .ok ()) (arrange : List (List Batch) → List Batch)
    (hsink : sink.Steady) (hclose : ∀ s, (sink.close s).1 = none)
    (hplans : gen.plans request = .ok plans) (s : τ) :
    (gen.runOnWorkers workers request sink arrange).run.run ⟨s, .never⟩
      = (.ok ⟨gen.summarise (plans.map gen.fullHarvest), []⟩,
          ⟨(sink.close (sink.after s (arrange (plans.map (gen.fullBatches true))))).2,
            .never⟩) :=
  runOnWorkers_of_takes hworkers hsetUp arrange hplans (hsink.takes s _) (Prod.ext (hclose _) rfl)

/-- Without plans a run on workers does not start. -/
theorem runOnWorkers_of_plans_error {workers : WorkerSettings} (hworkers : workers.fault? = none)
    (arrange : List (List Batch) → List Batch) {e : Error} (hplans : gen.plans request = .error e)
    (r : Receiving τ) :
    (gen.runOnWorkers workers request sink arrange).run.run r = (.error (.unusable e), r) := by
  rw [runOnWorkers, hworkers, hplans]
  rfl

/-- Without places for its workers it does not start either. -/
theorem runOnWorkers_of_setUp_error {workers : WorkerSettings} (hworkers : workers.fault? = none)
    {p : Panic} (hsetUp : workers.setUp = .error p) (arrange : List (List Batch) → List Batch)
    (hplans : gen.plans request = .ok plans) (r : Receiving τ) :
    (gen.runOnWorkers workers request sink arrange).run.run r
      = (.error (.unusable (.panic p)), r) := by
  rw [runOnWorkers, hworkers, hplans, hsetUp]
  rfl

/-! ### The order of the batches -/

theorem intent_of_mem_fullBatches {incremental : Bool} {plan : Plan gen.graph} {b : Batch}
    (hb : b ∈ gen.fullBatches incremental plan) : b.intent = plan.name :=
  intent_of_mem_batches hb

/-- The batches of different intents can be told apart. -/
theorem apart_fullBatches (hnames : (plans.map (·.name)).Nodup) :
    Apart Batch.intent (plans.map (gen.fullBatches true)) := by
  rw [Apart, List.pairwise_map]
  refine (List.pairwise_map.mp hnames).imp fun hne a ha b hb => ?_
  rw [intent_of_mem_fullBatches ha, intent_of_mem_fullBatches hb]
  exact hne

/-- The batches of an intent are numbered from zero. -/
theorem indices_fullBatches (incremental : Bool) (plan : Plan gen.graph) :
    (gen.fullBatches incremental plan).map (·.index)
      = List.range (gen.fullBatches incremental plan).length := by
  obtain ⟨e', hhands, -⟩ := (gen.emitter plan incremental).exists_hands_handed
    (gen.outcome plan .never).1
  rw [List.range_eq_range']
  exact hhands.indices

/-- The batches with a name are those of the plan with the name, if there is one, so they are
numbered from zero. -/
theorem indices_filter_fullBatches (hnames : (plans.map (·.name)).Nodup) (name : String) :
    ((plans.flatMap (gen.fullBatches true)).filter (·.intent = name)).map (·.index)
      = List.range ((plans.flatMap (gen.fullBatches true)).filter (·.intent = name)).length := by
  by_cases hplanned : ∃ plan ∈ plans, plan.name = name
  · obtain ⟨plan, hplan, rfl⟩ := hplanned
    rw [filter_flatMap_eq (gen.fullBatches true) Batch.intent (·.name)
      (fun _ _ _ hb => intent_of_mem_fullBatches hb) hnames hplan, indices_fullBatches]
  · have hnone : (plans.flatMap (gen.fullBatches true)).filter (·.intent = name) = [] := by
      refine filter_key_eq_nil fun b hb hname => ?_
      obtain ⟨plan, hplan, hb⟩ := List.mem_flatMap.mp hb
      exact hplanned ⟨plan, hplan, (intent_of_mem_fullBatches hb).symm.trans hname⟩
    rw [hnone]
    rfl

end Generator

/-! ### The theorem -/

/-- **A run on workers agrees with a run in order**, whatever the order in which the channel hands
over the batches, if nothing is cancelled and the sink never fails.  The sink gets the batches of a
run in order, each once, those of an intent in order and numbered from zero; a data set is filled in
the same way; no job fails, and the summary is the same.  If something is in the way of a plan, both
runs end for that reason and deliver nothing.  Beyond that a run on workers only needs that there
are not too many workers and not too much room on the way. -/
theorem schedules_agree (gen : Generator) (hnames : gen.graph.DistinctIntents) (request : Request)
    {workers : WorkerSettings} (hworkers : 1 ≤ workers.workers)
    (hcapacity : 1 ≤ workers.channelCapacity) (arrange : List (List Batch) → List Batch)
    (harrange : ∀ lists, workers.Delivers lists (arrange lists)) (sink : Sink τ)
    (hsink : sink.Steady) (hclose : ∀ s, (sink.close s).1 = none) (s : τ) :
    (gen.Ready → workers.workers ≤ maxPlaces → workers.channelCapacity ≤ maxPlaces →
      ∃ summary log inOrder t,
        (gen.runOnWorkers workers request sink arrange).run.run ⟨s, .never⟩
          = (.ok ⟨summary, []⟩, ⟨t, .never⟩) ∧
        (gen.runOnWorkers workers request sink.recording arrange).run.run ⟨(s, []), .never⟩
          = (.ok ⟨summary, []⟩, ⟨(t, log), .never⟩) ∧
        (gen.run request Batch.collector).run.run ⟨#[], .never⟩
          = (.ok summary, ⟨inOrder, .never⟩) ∧
        log.Perm inOrder.toList ∧
        (∀ name, log.filter (·.intent = name) = inOrder.toList.filter (·.intent = name) ∧
          (log.filter (·.intent = name)).map (·.index)
            = List.range (log.filter (·.intent = name)).length) ∧
        summary.cancelled = false ∧
        summary.intents.map (·.intent)
          = gen.graph.intents.map (fun v => (gen.graph.node v).key.name) ∧
        ∀ d, ∃ d',
          (gen.runOnWorkers workers request Dataset.sink arrange).run.run ⟨d, .never⟩
            = (.ok ⟨summary, []⟩, ⟨d', .never⟩) ∧
          (gen.run request Dataset.sink).run.run ⟨d, .never⟩ = (.ok summary, ⟨d', .never⟩)) ∧
    (¬ (gen.graph.PlainIntents ∧ gen.graph.QuotasFit) → ∃ e, ∃ v ∈ gen.graph.intents,
      gen.graph.Hinders v e ∧
      (gen.runOnWorkers workers request sink arrange).run.run ⟨s, .never⟩
        = (.error (.unusable e), ⟨s, .never⟩) ∧
      (gen.run request sink).run.run ⟨s, .never⟩ = (.error e, ⟨s, .never⟩)) ∧
    (gen.graph.PlainIntents → gen.graph.QuotasFit →
      maxPlaces < workers.workers ∨ maxPlaces < workers.channelCapacity →
      (gen.runOnWorkers workers request sink arrange).run.run ⟨s, .never⟩
        = (.error (.unusable (.panic .places)), ⟨s, .never⟩)) := by
  have hfault := WorkerSettings.fault?_eq_none hworkers hcapacity
  refine ⟨fun hready hfew hroom => ?_, fun hhindered => ?_, fun hplain hfits hmany => ?_⟩
  · have hsetUp := WorkerSettings.setUp_eq_ok hfew hroom
    obtain ⟨plans, hplans⟩ := Generator.exists_plans hready.plain hready.quotas request
    have hintents := Generator.names_of_plans_eq_ok hplans
    have hplanned : (plans.map (·.name)).Nodup := by
      rw [hintents]
      exact hnames
    -- the channel interleaves the batches of the intents, which are apart
    have hlog := (harrange (plans.map (gen.fullBatches true))).interleaves
    have hapart := Generator.apart_fullBatches hplanned
    have hfilter := hlog.filter_eq hapart
    have hfold := hlog.foldl_eq hapart (fun _ _ _ hne => Dataset.accept_comm _ hne)
    have hperm := hlog.perm
    rw [← List.flatMap_def] at hfilter hfold hperm
    refine ⟨gen.summarise (plans.map gen.fullHarvest), arrange (plans.map (gen.fullBatches true)),
      (plans.flatMap (gen.fullBatches true)).toArray, _,
      Generator.runOnWorkers_of_steady hfault hsetUp arrange hsink hclose hplans s,
      ?recorded, ?ordered, hperm, ?each, ?complete, ?summarised, ?filled⟩
    case recorded =>
      rw [Generator.runOnWorkers_of_steady hfault hsetUp arrange hsink.recording
        (fun s => hclose s.1) hplans, Sink.after_recording]
      rfl
    case ordered =>
      rw [Generator.run_of_steady (fun _ _ => rfl) hplans, Generator.after_collector,
        Array.empty_append]
      rfl
    case each =>
      intro name
      rw [hfilter name]
      exact ⟨rfl, Generator.indices_filter_fullBatches hplanned name⟩
    case complete =>
      show (plans.map gen.fullHarvest).any (·.cancelled) = false
      rw [List.any_map]
      exact List.any_eq_false.mpr fun _ _ => Bool.false_ne_true
    case summarised =>
      rw [← hintents]
      show ((plans.map gen.fullHarvest).map Harvest.summary).map (·.intent) = _
      rw [List.map_map, List.map_map]
      rfl
    case filled =>
      intro d
      refine ⟨Dataset.sink.after d (plans.flatMap (gen.fullBatches true)), ?_,
        Generator.run_of_steady (fun _ _ => rfl) hplans d⟩
      rw [Generator.runOnWorkers_of_steady hfault hsetUp arrange (fun _ _ => rfl)
        (fun _ => rfl) hplans]
      have hsame : Dataset.sink.after d (arrange (plans.map (gen.fullBatches true)))
          = Dataset.sink.after d (plans.flatMap (gen.fullBatches true)) := hfold d
      rw [hsame]
      rfl
  · obtain ⟨e, hplans⟩ := Generator.exists_plans_eq_error hnames hhindered request
    obtain ⟨v, hv, hhinders⟩ := Generator.exists_hinders hplans
    exact ⟨e, v, hv, hhinders, Generator.runOnWorkers_of_plans_error hfault arrange hplans _,
      Generator.run_of_plans_error request hplans _⟩
  · obtain ⟨plans, hplans⟩ := Generator.exists_plans hplain hfits request
    exact Generator.runOnWorkers_of_setUp_error hfault (WorkerSettings.setUp_eq_error hmany) arrange
      hplans _

/-! ### Jobs that overtake each other -/

/-- The first job sends one batch, and then the second one sends all it has. -/
def overtaking : List (List Batch) → List Batch
  | [b :: bs, cs] => b :: (cs ++ bs)
  | lists => lists.flatten

theorem interleaves_append {α : Type} (as bs : List α) : Interleaves [as, bs] (bs ++ as) := by
  induction bs with
  | nil =>
    induction as with
    | nil => exact .done (by simp)
    | cons a as ih =>
      show Interleaves ([] ++ (a :: as) :: [[]]) _
      exact .take ih
  | cons b bs ih =>
    show Interleaves ([as] ++ (b :: bs) :: []) _
    exact .take ih

theorem delivers_overtaking (lists : List (List Batch)) :
    (WorkerSettings.mk 2 1).Delivers lists (overtaking lists) := by
  unfold overtaking
  split
  · next b bs cs =>
    have htwo : [b :: bs, cs].length ≤ (WorkerSettings.mk 2 1).workers := Nat.le_refl 2
    rw [WorkerSettings.delivers_iff htwo (Nat.le_refl 1)]
    show Interleaves ([] ++ (b :: bs) :: [cs]) _
    exact .take (interleaves_append bs cs)
  · exact WorkerSettings.delivers_flatten (by decide) (by decide) _

/-- The batches of the two jobs. -/
theorem fullBatches_courtesies :
    [Plan.greet, .leave].map (Generator.courtesies.fullBatches true) = [
    [⟨"greet", 0, .training, [wordTokens ["hello", "there"]]⟩,
      ⟨"greet", 1, .testing, [wordTokens ["hello"]]⟩],
    [⟨"leave", 0, .training, [wordTokens ["goodbye"]]⟩]] := by
  rw [List.map_cons, List.map_singleton, Generator.fullBatches, Generator.fullHarvest,
    Generator.labelled_outcome, Generator.fullBatches, Generator.fullHarvest,
    Generator.labelled_outcome]
  decide +kernel

/-- Two workers with room for one batch between them: the word to leave with comes between the
greetings.  In order it comes behind them. -/
theorem schedules_of_courtesies : Generator.courtesies.graph.DistinctIntents ∧
    Generator.courtesies.Ready ∧ Batch.collector.Steady ∧
    (∀ lists, (WorkerSettings.mk 2 1).Delivers lists (overtaking lists)) ∧
    ∃ summary kept inOrder,
      (Generator.courtesies.runOnWorkers ⟨2, 1⟩ {} Batch.collector overtaking).run.run ⟨#[], .never⟩
        = (.ok ⟨summary, []⟩, ⟨kept, .never⟩) ∧
      kept.toList.map (fun b => (b.intent, b.index)) = [("greet", 0), ("leave", 0), ("greet", 1)] ∧
      (Generator.courtesies.run {} Batch.collector).run.run ⟨#[], .never⟩
        = (.ok summary, ⟨inOrder, .never⟩) ∧
      inOrder.toList.map (fun b => (b.intent, b.index))
        = [("greet", 0), ("greet", 1), ("leave", 0)] ∧
      summary.intents.map (·.intent) = ["greet", "leave"] ∧
      ∀ d, ∃ d',
        (Generator.courtesies.runOnWorkers ⟨2, 1⟩ {} Dataset.sink overtaking).run.run ⟨d, .never⟩
          = (.ok ⟨summary, []⟩, ⟨d', .never⟩) ∧
        (Generator.courtesies.run {} Dataset.sink).run.run ⟨d, .never⟩
          = (.ok summary, ⟨d', .never⟩) := by
  have hsteady : Batch.collector.Steady := fun _ _ => rfl
  have hworkers : 1 ≤ (WorkerSettings.mk 2 1).workers := by decide
  have hcapacity : 1 ≤ (WorkerSettings.mk 2 1).channelCapacity := by decide
  obtain ⟨hruns, -⟩ := schedules_agree Generator.courtesies distinct_courtesies {} hworkers
    hcapacity overtaking delivers_overtaking Batch.collector hsteady (fun _ => rfl) #[]
  obtain ⟨summary, log, inOrder, kept, hrun, -, hinOrder, -, -, -, hintents, hfilled⟩ :=
    hruns ready_courtesies (by decide) (by decide)
  have hfault := WorkerSettings.fault?_eq_none hworkers hcapacity
  have hkept := Generator.runOnWorkers_of_steady hfault rfl overtaking hsteady (fun _ => rfl)
    plans_courtesies #[]
  have hcollected := Generator.run_of_steady hsteady plans_courtesies #[]
  rw [fullBatches_courtesies] at hkept
  rw [show Batch.collector.incremental = true from rfl, List.flatMap_def, fullBatches_courtesies]
    at hcollected
  refine ⟨distinct_courtesies, ready_courtesies, hsteady, delivers_overtaking, summary, kept,
    inOrder, hrun, ?_, hinOrder, ?_, hintents, hfilled⟩
  · have hmixed : kept = _ := congrArg (fun r => r.2.sink) (hrun.symm.trans hkept)
    rw [hmixed]
    rfl
  · have hordered : inOrder = _ := congrArg (fun r => r.2.sink) (hinOrder.symm.trans hcollected)
    rw [hordered]
    rfl

/-- Where the only intent has a variation or asks for too much, or where there are too many workers,
the workers report nothing, though the names of intents are distinct and the sink takes every
batch. -/
theorem no_report_without_plans : Batch.collector.Steady ∧
    (Graph.build .casual 10000 = .ok Generator.casual.graph ∧
      Generator.casual.graph.DistinctIntents ∧
      ∀ report r', (Generator.casual.runOnWorkers {} {} Batch.collector).run.run ⟨#[], .never⟩
        ≠ (.ok report, r')) ∧
    (Graph.build .excessive 10000 = .ok Generator.excessive.graph ∧
      Generator.excessive.graph.DistinctIntents ∧
      ∀ report r', (Generator.excessive.runOnWorkers {} {} Batch.collector).run.run ⟨#[], .never⟩
        ≠ (.ok report, r')) ∧
    Generator.courtesies.graph.DistinctIntents ∧ Generator.courtesies.Ready ∧
      ∀ report r', (Generator.courtesies.runOnWorkers ⟨maxPlaces + 1, 1⟩ {} Batch.collector).run.run
        ⟨#[], .never⟩ ≠ (.ok report, r') := by
  refine ⟨fun _ _ => rfl, ⟨build_casual, by show (List.map _ _).Nodup; decide, ?_⟩,
    ⟨build_excessive, by show (List.map _ _).Nodup; decide, ?_⟩, distinct_courtesies,
    ready_courtesies, ?_⟩
  · intro report r' hrun
    rw [Generator.runOnWorkers_of_plans_error rfl _ plans_casual] at hrun
    cases congrArg Prod.fst hrun
  · intro report r' hrun
    rw [Generator.runOnWorkers_of_plans_error rfl _ plans_excessive] at hrun
    cases congrArg Prod.fst hrun
  · intro report r' hrun
    have hmany : (WorkerSettings.mk (maxPlaces + 1) 1).setUp = .error .places :=
      WorkerSettings.setUp_eq_error (.inl (Nat.lt_succ_self _))
    rw [Generator.runOnWorkers_of_setUp_error (by decide) hmany _ plans_courtesies] at hrun
    cases congrArg Prod.fst hrun

end IntentGrammar
