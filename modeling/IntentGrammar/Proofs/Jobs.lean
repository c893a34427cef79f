import IntentGrammar.Proofs.Schedules

/-!
# Jobs that may be cancelled

Whenever a run on workers is cancelled, each of its jobs comes to an end: it has handed over what it
has yielded, and it has not failed (`Generator.exists_jobs`).  So a run that yields a report has
been through all jobs, and its sink has accepted their batches in some order
(**`Generator.runOnWorkers_eq_ok`**).  A job that says it was not cancelled came to all of its plan.
-/

namespace IntentGrammar

variable {τ : Type}

namespace Sink

variable {sink : Sink τ} {r r' : Receiving τ}

/-- The sink never cancels a run. -/
def Plain (sink : Sink τ) : Prop := ∀ b s, (sink.accept b s).1 ≠ .acceptedLast

/-- Batches that have been delivered have been accepted. -/
theorem takes_of_run_forM (hplain : sink.Plain) {bs : List Batch}
    (h : (bs.forM sink.deliver).run.run r = (.ok (), r')) :
    sink.Takes r.sink bs ∧ r' = ⟨sink.after r.sink bs, r.cancellation⟩ := by
  induction bs generalizing r with
  | nil =>
    cases h
    exact ⟨trivial, rfl⟩
  | cons b bs ih =>
    obtain ⟨⟨⟩, r₁, hdeliver, hrest⟩ := exists_of_run_bind_eq_ok h
    have hnot := hplain b r.sink
    rw [deliver, run_get_bind] at hdeliver
    rcases hreply : sink.accept b r.sink with ⟨reply, s⟩
    rw [hreply] at hdeliver hnot
    cases reply with
    | accepted =>
      cases hdeliver
      obtain ⟨htakes, rfl⟩ := ih hrest
      rw [after_cons, Takes, hreply]
      exact ⟨⟨rfl, htakes⟩, rfl⟩
    | acceptedLast => exact absurd rfl hnot
    | refused reason => cases hdeliver

theorem takes_of_run_receive (hplain : sink.Plain) {bs : List Batch}
    (h : (sink.receive bs).run.run r = (.ok (), r')) :
    sink.Takes r.sink bs ∧ r' = ⟨sink.after r.sink bs, r.cancellation⟩ := by
  rw [receive, run_get_bind] at h
  rcases hrun : (bs.forM sink.deliver).run.run r with ⟨e | ⟨⟩, r₁⟩
  · rw [hrun] at h
    cases h
  · rw [hrun] at h
    cases h
    exact takes_of_run_forM hplain hrun

theorem close_of_run_finish (h : sink.finish.run.run r = (.ok (), r')) :
    sink.close r.sink = (none, r'.sink) := by
  rw [finish, run_get_bind] at h
  rcases hclose : sink.close r.sink with ⟨_ | reason, s⟩
  · rw [hclose] at h
    cases h
    rfl
  · rw [hclose] at h
    cases h

end Sink

namespace Generator

variable {gen : Generator} {request : Request} {sink : Sink τ}

/-- **A job comes to an end** whenever it is cancelled. -/
theorem exists_job (plan : Plan gen.graph) (c : Cancellation) :
    ∃ h c', (gen.job plan).run c = (gen.jobOf h, c') ∧ h.plan = plan ∧
      (h.cancelled = false → h = gen.fullHarvest plan) := by
  have hsteady : Batch.collector.Steady := fun _ _ => rfl
  obtain ⟨h, ⟨kept, c'⟩, hreaps⟩ := exists_reaps hsteady.willing plan ⟨#[], c⟩
  have hkept : kept = (gen.batches true h).toArray := by
    rw [show kept = _ from hreaps.got, after_collector, Array.empty_append]
    rfl
  have hrun : (gen.generateIntent plan Batch.collector).run.run ⟨#[], c⟩
      = (.ok h.summary, ⟨kept, c'⟩) := by
    rw [generateIntent_eq, run_map_of_ok hreaps.run]
  obtain rfl := hreaps.plan_eq
  refine ⟨h, c', ?_, rfl, fun hopen => ?_⟩
  · let ended := (gen.generateIntent h.plan Batch.collector).run.run ⟨#[], c⟩
    show (Job.mk h.plan.name ended.2.sink.toList ended.1, ended.2.cancellation) = _
    rw [show ended = _ from hrun, hkept]
    rfl
  · rw [fullHarvest, ← hreaps.all hopen, ← hopen]

theorem exists_jobs (plans : List (Plan gen.graph)) (c : Cancellation) :
    ∃ (hs : List (Harvest gen.graph)) (c' : Cancellation),
      (plans.mapM gen.job).run c = (hs.map gen.jobOf, c') ∧ hs.map (·.plan) = plans ∧
      ∀ h ∈ hs, h.cancelled = false → h = gen.fullHarvest h.plan := by
  induction plans generalizing c with
  | nil => exact ⟨[], c, rfl, rfl, nofun⟩
  | cons plan plans ih =>
    obtain ⟨h, c₁, hjob, rfl, hfull⟩ := exists_job plan c
    obtain ⟨hs, c', hjobs, hplans, hall⟩ := ih c₁
    refine ⟨h :: hs, c', ?_, ?_, ?_⟩
    · rw [List.mapM_cons, StateT.run_bind, hjob]
      show ((plans.mapM gen.job >>= fun jobs => pure (_ :: jobs)).run c₁) = _
      rw [StateT.run_bind, hjobs]
      rfl
    · rw [List.map_cons, hplans]
    · exact List.forall_mem_cons.mpr ⟨hfull, hall⟩

/-- **A run on workers that yields a report** has had all its batches accepted. -/
theorem runOnWorkers_eq_ok {workers : WorkerSettings} {arrange : List (List Batch) → List Batch}
    {report : Report} {r r' : Receiving τ} (hplain : sink.Plain)
    (h : (gen.runOnWorkers workers request sink arrange).run.run r = (.ok report, r')) :
    ∃ (plans : List (Plan gen.graph)) (hs : List (Harvest gen.graph)),
      gen.plans request = .ok plans ∧ hs.map (·.plan) = plans ∧
      (∀ h ∈ hs, h.cancelled = false → h = gen.fullHarvest h.plan) ∧
      report = ⟨gen.summarise hs, []⟩ ∧
      sink.Takes r.sink (arrange (hs.map (gen.batches true))) ∧
      sink.close (sink.after r.sink (arrange (hs.map (gen.batches true)))) = (none, r'.sink) := by
  rw [runOnWorkers] at h
  obtain ⟨⟨⟩, r₁, hfault, h⟩ := exists_of_run_bind_eq_ok h
  obtain rfl : r = r₁ := by
    cases hworkers : workers.fault? with
    | none =>
      rw [hworkers] at hfault
      cases hfault
      rfl
    | some fault =>
      rw [hworkers] at hfault
      cases hfault
  rcases hplans : gen.plans request with e | plans
  · rw [hplans] at h
    cases congrArg Prod.fst h
  · rw [hplans] at h
    obtain ⟨hs, c', hjobs, hmap, hfull⟩ := exists_jobs plans r.cancellation
    have hrun : (gen.runJobs plans : Working τ _).run.run r
        = (.ok (hs.map gen.jobOf), ⟨r.sink, c'⟩) := by
      rw [runJobs, run_get_bind, hjobs]
      rfl
    have hbatches : (hs.map gen.jobOf).map (·.batches) = hs.map (gen.batches true) := by
      rw [List.map_map]
      rfl
    replace h : (gen.runJobs plans >>= fun jobs => do
        sink.receive (arrange (jobs.map (·.batches)))
        sink.finish
        return Report.ofJobs gen.seed jobs).run.run r = (.ok report, r') := by
      rcases hsetUp : workers.setUp with p | ⟨⟩
      · rw [hsetUp] at h
        cases congrArg Prod.fst h
      · rw [hsetUp] at h
        exact h
    rw [run_bind_of_ok hrun, hbatches, ofJobs_jobOf] at h
    obtain ⟨⟨⟩, r₁, hreceive, h⟩ := exists_of_run_bind_eq_ok h
    obtain ⟨htakes, rfl⟩ := Sink.takes_of_run_receive hplain hreceive
    obtain ⟨⟨⟩, r₂, hfinish, h⟩ := exists_of_run_bind_eq_ok h
    cases h
    exact ⟨plans, hs, rfl, hmap, hfull, rfl, htakes, Sink.close_of_run_finish hfinish⟩

end Generator

end IntentGrammar
