import IntentGrammar.Proofs.Accounts

/-!
# A sink that refuses a batch

A sink may take some batches and then refuse one.  The refusal can come anywhere: while an intent is
generated, when what is left of it is handed over, or with a later intent.  What is delivered up to
then does not depend on it: a computation that delivers has a fixed list of batches and a fixed
result, which it comes to as long as the sink accepts, and with the first refusal it ends
(`Sink.Brings`).  This holds of one delivery, and it is kept when computations follow each other
(`Sink.Brings.bind`), so it holds of a whole run (`Generator.brings_harvests`).

**A run ends with the first refusal** (`refusal_ends_run`): its error is that of the sink, the sink
gets nothing more, and what it has got are the first batches of the run that nothing hinders.
-/

namespace IntentGrammar

variable {σ τ α β : Type}

/-! ### Up to a refusal -/

namespace Sink

/-- The sink accepts the batches, one after the other. -/
def Takes (sink : Sink τ) : τ → List Batch → Prop
  | _, [] => True
  | s, b :: bs => (sink.accept b s).1 = .accepted ∧ sink.Takes (sink.accept b s).2 bs

/-- Of the batches the sink gets those in the last list: it refuses the last of them, and it accepts
the others. -/
inductive Refuses (sink : Sink τ) (reason : String) : τ → List Batch → List Batch → Prop
  | here {s : τ} {b : Batch} {bs : List Batch} :
      (sink.accept b s).1 = .refused reason → Refuses sink reason s (b :: bs) [b]
  | later {s : τ} {b : Batch} {bs heard : List Batch} :
      (sink.accept b s).1 = .accepted → Refuses sink reason (sink.accept b s).2 bs heard →
      Refuses sink reason s (b :: bs) (b :: heard)

variable {sink : Sink τ} {s : τ} {bs cs heard : List Batch} {reason : String}

theorem after_cons (s : τ) (b : Batch) (bs : List Batch) :
    sink.after s (b :: bs) = sink.after (sink.accept b s).2 bs := rfl

theorem takes_append :
    sink.Takes s (bs ++ cs) ↔ sink.Takes s bs ∧ sink.Takes (sink.after s bs) cs := by
  induction bs generalizing s with
  | nil => simp [Takes, after]
  | cons b bs ih =>
    rw [List.cons_append, Takes, Takes, ih, after_cons, and_assoc]

theorem Steady.takes (h : sink.Steady) (s : τ) (bs : List Batch) : sink.Takes s bs := by
  induction bs generalizing s with
  | nil => trivial
  | cons b bs ih => exact ⟨h b s, ih _⟩

/-- Whoever keeps a record accepts what the sink accepts. -/
theorem Takes.recording (h : sink.Takes s bs) (log : List Batch) :
    sink.recording.Takes (s, log) bs := by
  induction bs generalizing s log with
  | nil => trivial
  | cons b bs ih => exact ⟨h.1, ih h.2 _⟩

theorem Refuses.recording (h : sink.Refuses reason s bs heard) (log : List Batch) :
    sink.recording.Refuses reason (s, log) bs heard := by
  induction h generalizing log with
  | here href => exact .here href
  | later hacc _ ih => exact .later hacc (ih _)

/-- A sink that accepts some batches and not the next refuses that one. -/
theorem Takes.refuses {b : Batch} (h : sink.Takes s bs)
    (href : (sink.accept b (sink.after s bs)).1 = .refused reason) (cs : List Batch) :
    sink.Refuses reason s (bs ++ b :: cs) (bs ++ [b]) := by
  induction bs generalizing s with
  | nil => exact .here href
  | cons b' bs ih => exact .later h.1 (ih h.2 href)

/-- A refusal among batches that are put together is one among the first, or these are accepted and
it is one among the others. -/
theorem Refuses.of_append (h : sink.Refuses reason s (bs ++ cs) heard) :
    sink.Refuses reason s bs heard ∨ sink.Takes s bs ∧
      ∃ heard', heard = bs ++ heard' ∧ sink.Refuses reason (sink.after s bs) cs heard' := by
  induction bs generalizing s heard with
  | nil => exact .inr ⟨trivial, heard, rfl, h⟩
  | cons b bs ih =>
    cases h with
    | here href => exact .inl (.here href)
    | later hacc hrest =>
      rcases ih hrest with hfirst | ⟨htakes, heard', rfl, hothers⟩
      · exact .inl (.later hacc hfirst)
      · exact .inr ⟨⟨hacc, htakes⟩, heard', rfl, hothers⟩

/-! ### What a computation brings -/

/-- The computation delivers the batches and comes to `a`, as long as the sink accepts them; with
the first refusal it ends. -/
def Brings (sink : Sink τ) (bs : List Batch) (a : α) (x : Delivering τ α) : Prop :=
  ∀ s, (sink.Takes s bs → x.run.run ⟨s, .never⟩ = (.ok a, ⟨sink.after s bs, .never⟩)) ∧
    ∀ reason heard, sink.Refuses reason s bs heard →
      x.run.run ⟨s, .never⟩ = (.error (.sink reason), ⟨sink.after s heard, .never⟩)

theorem brings_pure (a : α) : sink.Brings [] a (pure a) := by
  intro s
  refine ⟨fun _ => rfl, ?_⟩
  intro reason heard href
  cases href

theorem Brings.bind {x : Delivering τ α} {f : α → Delivering τ β} {a : α} {b : β}
    (hx : sink.Brings bs a x) (hf : sink.Brings cs b (f a)) :
    sink.Brings (bs ++ cs) b (x >>= f) := by
  intro s
  constructor
  · intro htakes
    obtain ⟨hfirst, hothers⟩ := takes_append.mp htakes
    rw [run_bind_of_ok ((hx s).1 hfirst), (hf _).1 hothers, after_append]
  · intro reason heard href
    rcases href.of_append with hfirst | ⟨htakes, heard', rfl, hothers⟩
    · -- what would have come behind the refusal does not come about
      exact run_bind_of_error ((hx s).2 reason heard hfirst) f
    · rw [run_bind_of_ok ((hx s).1 htakes), (hf _).2 reason heard' hothers, after_append]

/-- What a computation comes to can be worked on. -/
theorem Brings.map {x : Delivering τ α} {a : α} (hx : sink.Brings bs a x) (f : α → β) :
    sink.Brings bs (f a) (do return f (← x)) := by
  have hall := hx.bind (f := fun a => pure (f a)) (brings_pure _)
  rwa [List.append_nil] at hall

theorem brings_deliver (b : Batch) : sink.Brings [b] () (sink.deliver b) := by
  intro s
  rw [deliver, run_get_bind]
  constructor
  · rintro ⟨hacc, -⟩
    rw [after_cons]
    rcases hreply : sink.accept b s with ⟨reply, t⟩
    rw [hreply] at hacc
    obtain rfl : reply = .accepted := hacc
    rfl
  · intro reason heard href
    cases href with
    | here href =>
      rw [after_cons]
      rcases hreply : sink.accept b s with ⟨reply, t⟩
      rw [hreply] at href
      obtain rfl : reply = .refused reason := href
      rfl
    | later _ hrest => cases hrest

theorem brings_forM (sink : Sink τ) (bs : List Batch) :
    sink.Brings bs () (bs.forM sink.deliver) := by
  induction bs with
  | nil => exact brings_pure _
  | cons b bs ih => exact (brings_deliver b).bind ih

end Sink

/-! ### Intents and runs -/

namespace Generator

variable {gen : Generator} {sink : Sink τ} {request : Request} {plans : List (Plan gen.graph)}

/-- A stream hands over what its emitter makes of all that it yields. -/
theorem brings_feed (plan : Plan gen.graph) (n : Nat) (s : Stream) (e : Emitter) :
    sink.Brings (e.pushAll (s.take (gen.pull? plan.intent) n .never).1).1
      ((s.take (gen.pull? plan.intent) n .never).2.1,
        (e.pushAll (s.take (gen.pull? plan.intent) n .never).1).2,
        (s.take (gen.pull? plan.intent) n .never).1)
      (gen.feed plan sink n s e) := by
  induction n generalizing s e with
  | zero => exact Sink.brings_pure _
  | succ n ih =>
    rcases hnext : s.next (gen.pull? plan.intent) .never with ⟨_ | x, s₁, c⟩
    · obtain rfl : c = .never := (next_calm hnext).1
      have htake : s.take (gen.pull? plan.intent) (n + 1) .never = ([], s₁, .never) := by
        rw [Stream.take, hnext]
      rw [htake]
      intro t
      rw [feed, run_get_bind, hnext]
      exact Sink.brings_pure _ t
    · obtain rfl : c = .never := (next_calm hnext).1
      -- the utterance is handed over, or not, before the others are looked for
      have htake : s.take (gen.pull? plan.intent) (n + 1) .never
          = (x :: (s₁.take (gen.pull? plan.intent) n .never).1,
              (s₁.take (gen.pull? plan.intent) n .never).2) := by
        rw [Stream.take, hnext]
      have hrest := (ih s₁ (e.push x.1 x.2).2).map fun r => (r.1, r.2.1, x :: r.2.2)
      have hall := (Sink.brings_forM sink (e.push x.1 x.2).1.toList).bind
        (f := fun _ => _) hrest
      rw [htake]
      intro t
      rw [feed, run_get_bind, hnext, run_set_bind]
      simp only [Sink.forM_toList]
      exact hall t

/-- Without cancellation a plan comes to its end without one. -/
theorem cancelled_outcome_never (plan : Plan gen.graph) :
    (gen.outcome plan .never).2.1.cancelled = false := by
  obtain ⟨xs, s, read, hrest, hadvances⟩ :=
    exists_rest_start plan (gen.fitSplit plan .never).1
  rw [outcome_never, hrest]
  exact hadvances.cancelled

/-- An intent is handed over in its batches. -/
theorem brings_harvest (plan : Plan gen.graph) :
    sink.Brings (gen.fullBatches sink.incremental plan) (gen.fullHarvest plan)
      (gen.harvest plan sink) := by
  have hcancelled := cancelled_outcome_never plan
  have hnever := stream_never plan
  rw [fullBatches, batches, fullHarvest, Emitter.handed]
  rw [outcome] at hcancelled ⊢
  intro t
  rw [harvest, run_get_bind]
  rcases hstream : gen.stream plan .never with ⟨s, c⟩
  rw [hstream] at hnever hcancelled
  obtain rfl : c = .never := hnever
  -- what is still waiting at the end comes behind what has been handed over before
  let close (r : Stream × Emitter × List Labelled) : Delivering τ (Harvest gen.graph) := do
    r.2.1.finish.forM sink.deliver
    return ⟨plan, r.2.2, r.1.cancelled⟩
  have hclose (r : Stream × Emitter × List Labelled) :
      sink.Brings r.2.1.finish ⟨plan, r.2.2, r.1.cancelled⟩ (close r) :=
    (Sink.brings_forM sink _).map fun _ => _
  have hall := (brings_feed plan (s.target - s.produced) s
    (gen.emitter plan sink.incremental)).bind (f := close) (hclose _)
  rw [← hcancelled]
  exact hall t

/-- A run over plans hands over the batches of one intent after the other. -/
theorem brings_harvests (plans : List (Plan gen.graph)) :
    sink.Brings (plans.flatMap (gen.fullBatches sink.incremental)) (plans.map gen.fullHarvest)
      (gen.harvests sink plans) := by
  induction plans with
  | nil => exact Sink.brings_pure _
  | cons plan plans ih =>
    rw [harvests, List.flatMap_cons, List.map_cons]
    apply (brings_harvest plan).bind
    have hopen : ¬(gen.fullHarvest plan).cancelled = true := Bool.false_ne_true
    rw [if_neg hopen]
    exact ih.map fun hs => gen.fullHarvest plan :: hs

/-- A run with plans hands over the batches of all intents. -/
theorem brings_run (hplans : gen.plans request = .ok plans) (sink : Sink τ) :
    sink.Brings (plans.flatMap (gen.fullBatches sink.incremental))
      (gen.summarise (plans.map gen.fullHarvest)) (gen.run request sink) := by
  rw [run_eq_of_plans request hplans, map_eq_pure_bind]
  exact (brings_harvests plans).map gen.summarise

/-- Nothing of a run is cancelled that is not cancelled from without. -/
theorem cancelled_summarise_fullHarvest (plans : List (Plan gen.graph)) :
    (gen.summarise (plans.map gen.fullHarvest)).cancelled = false := by
  show (plans.map gen.fullHarvest).any (·.cancelled) = false
  rw [List.any_map]
  exact List.any_eq_false.mpr fun _ _ => Bool.false_ne_true

end Generator

/-! ### The theorem -/

/-- **A run ends with the first refusal.**  `log` is what the run delivers to a sink that never
fails, of the same mode, and `result` is what it comes to.  If a sink accepts the first `j` batches
and refuses the next one, the run fails with the error of the sink, and the sink has got those
batches and nothing behind them.  If it accepts as many as there are, the result is the same.  With
a probability that can be drawn by, that is a summary, unless something is in the way of the plan
for an intent: then nothing is delivered to either sink, and the run ends for that reason. -/
theorem refusal_ends_run (gen : Generator) (request : Request) (sink : Sink τ) (steady : Sink σ)
    (hsteady : steady.Steady) (hmode : steady.incremental = sink.incremental) (s : τ) (t : σ) :
    ∃ log result,
      (gen.run request steady.recording).run.run ⟨(t, []), .never⟩
        = (result, ⟨(steady.after t log, log), .never⟩) ∧
      (isProbability gen.settings.optionalProbability = true →
        (∃ summary, result = .ok summary ∧ summary.cancelled = false) ∨
          log = [] ∧ ∃ e, ∃ v ∈ gen.graph.intents, gen.graph.Hinders v e ∧ result = .error e) ∧
      (gen.Ready → ∃ summary, result = .ok summary ∧ summary.cancelled = false) ∧
      ∀ j, sink.Takes s (log.take j) →
        (∀ b ∈ log[j]?, ∀ reason,
          (sink.accept b (sink.after s (log.take j))).1 = .refused reason →
            (gen.run request sink).run.run ⟨s, .never⟩
              = (.error (.sink reason), ⟨sink.after s (log.take (j + 1)), .never⟩) ∧
            (gen.run request sink.recording).run.run ⟨(s, []), .never⟩
              = (.error (.sink reason),
                  ⟨(sink.after s (log.take (j + 1)), log.take (j + 1)), .never⟩)) ∧
        (log.length ≤ j →
          (gen.run request sink).run.run ⟨s, .never⟩ = (result, ⟨sink.after s log, .never⟩) ∧
          (gen.run request sink.recording).run.run ⟨(s, []), .never⟩
            = (result, ⟨(sink.after s log, log), .never⟩)) := by
  rcases hplans : gen.plans request with e | plans
  · -- no run has got as far as a first batch
    have hrun {ρ : Type} (any : Sink ρ) (r : Receiving ρ) :
        (gen.run request any).run.run r = (.error e, r) :=
      Generator.run_of_plans_error request hplans r
    obtain ⟨v, hv, hhinders⟩ := Generator.exists_hinders hplans
    refine ⟨[], _, hrun _ _, fun _ => .inr ⟨rfl, e, v, hv, hhinders, rfl⟩, fun hready => ?_,
      fun j _ => ?_⟩
    · obtain ⟨plans, hsome⟩ := Generator.exists_plans hready.plain hready.quotas request
      rw [hplans] at hsome
      cases hsome
    · exact ⟨nofun, fun _ => ⟨hrun _ _, hrun _ _⟩⟩
  · have hbrings {ρ : Type} (any : Sink ρ) (h : any.incremental = sink.incremental) :
        any.Brings (plans.flatMap (gen.fullBatches sink.incremental))
          (gen.summarise (plans.map gen.fullHarvest)) (gen.run request any) := by
      rw [← h]
      exact Generator.brings_run hplans any
    generalize plans.flatMap (gen.fullBatches sink.incremental) = log at hbrings
    have hsummary := Generator.cancelled_summarise_fullHarvest plans
    refine ⟨log, .ok (gen.summarise (plans.map gen.fullHarvest)), ?_,
      fun _ => .inl ⟨_, rfl, hsummary⟩, fun _ => ⟨_, rfl, hsummary⟩, ?_⟩
    · rw [(hbrings steady.recording hmode _).1 (hsteady.recording.takes _ _), Sink.after_recording]
      rfl
    · intro j htakes
      constructor
      · intro b hb reason hrefused
        have hsplit : log.take (j + 1) = log.take j ++ [b] := by
          rw [List.take_add_one, Option.mem_def.mp hb]
          rfl
        have href : sink.Refuses reason s log (log.take (j + 1)) := by
          have hlog : log = log.take j ++ b :: log.drop (j + 1) := by
            rw [← List.singleton_append, ← List.append_assoc, ← hsplit, List.take_append_drop]
          have hthere := htakes.refuses hrefused (log.drop (j + 1))
          rwa [← hlog, ← hsplit] at hthere
        refine ⟨(hbrings sink rfl s).2 reason _ href, ?_⟩
        rw [(hbrings sink.recording rfl _).2 reason _ (href.recording []), Sink.after_recording]
        rfl
      · intro hlength
        rw [List.take_of_length_le hlength] at htakes
        refine ⟨(hbrings sink rfl s).1 htakes, ?_⟩
        rw [(hbrings sink.recording rfl _).1 (htakes.recording []), Sink.after_recording]
        rfl

/-- The sink with room for so many batches. -/
def Sink.shelf : Sink Nat where
  accept _
    | 0 => (.refused "no room", 0)
    | room + 1 => (.accepted, room)

/-- The shelf takes as many batches as it has room for. -/
theorem Sink.takes_shelf {bs : List Batch} {room : Nat} (h : bs.length ≤ room) :
    Sink.shelf.Takes room bs := by
  induction bs generalizing room with
  | nil => trivial
  | cons b bs ih =>
    rcases room with _ | room
    · simp at h
    · exact ⟨rfl, ih (Nat.le_of_succ_le_succ h)⟩

/-- With room for one batch, the greeting for testing is refused. -/
theorem refusal_of_greetings : Batch.collector.Steady ∧
    Batch.collector.incremental = Sink.shelf.incremental ∧ ∃ log,
      log.map (fun b => (b.index, b.part)) = [(0, .training), (1, .testing)] ∧
      (Generator.greetings.run {} Batch.collector.recording).run.run ⟨(#[], []), .never⟩
        = (.ok (Generator.greetings.summarise [Generator.greetings.fullHarvest Plan.greetings]),
            ⟨(Batch.collector.after #[] log, log), .never⟩) ∧
      (Generator.greetings.run {} Sink.shelf.recording).run.run ⟨(1, []), .never⟩
        = (.error (.sink "no room"), ⟨(0, log), .never⟩) := by
  have hsteady : Batch.collector.Steady := fun _ _ => rfl
  have hplans : Generator.greetings.plans {} = .ok [Plan.greetings] := rfl
  have hbatches : Generator.greetings.fullBatches true Plan.greetings
      = [⟨"greet", 0, .training, [wordTokens ["hello", "there"]]⟩,
          ⟨"greet", 1, .testing, [wordTokens ["hello"]]⟩] := by
    rw [Generator.fullBatches, Generator.fullHarvest, outcome_greetings]
    decide +kernel
  obtain ⟨log, result, hsmooth, -, -, hrefusals⟩ :=
    refusal_ends_run Generator.greetings {} Sink.shelf Batch.collector hsteady rfl 1 #[]
  have hrun := (Generator.brings_run hplans Batch.collector.recording (#[], [])).1
    (hsteady.recording.takes _ _)
  rw [List.flatMap_singleton, hsmooth, Sink.after_recording] at hrun
  obtain rfl : result = .ok _ := congrArg Prod.fst hrun
  obtain rfl : log = Generator.greetings.fullBatches true Plan.greetings :=
    congrArg (fun r => r.2.sink.2) hrun
  rw [hbatches] at hsmooth hrefusals
  refine ⟨hsteady, rfl, _, rfl, hsmooth, ?_⟩
  -- the first batch finds room, and then there is none
  exact ((hrefusals 1 ⟨rfl, trivial⟩).1 _ rfl "no room" rfl).2

/-! ### No summary at all -/

/-- Where the only intent has a variation, or asks for too much, nothing is delivered to a sink that
would take five batches, as to one that never fails, and there is no summary. -/
theorem no_summary_without_plans : (∀ bs, bs.length ≤ 5 → Sink.shelf.Takes 5 bs) ∧
    (Graph.build .casual 10000 = .ok Generator.casual.graph ∧
      (Generator.casual.run {} Batch.collector).run.run ⟨#[], .never⟩
        = (.error (.unknownIntent "greet"), ⟨#[], .never⟩) ∧
      ∀ s r', (Generator.casual.run {} Sink.shelf).run.run ⟨5, .never⟩ ≠ (.ok s, r')) ∧
    Graph.build .excessive 10000 = .ok Generator.excessive.graph ∧
      (Generator.excessive.run {} Batch.collector).run.run ⟨#[], .never⟩
        = (.error (.panic .addition), ⟨#[], .never⟩) ∧
      ∀ s r', (Generator.excessive.run {} Sink.shelf).run.run ⟨5, .never⟩ ≠ (.ok s, r') := by
  refine ⟨fun bs => Sink.takes_shelf,
    ⟨build_casual, Generator.run_of_plans_error {} plans_casual _, fun s r' hrun => ?_⟩,
    build_excessive, Generator.run_of_plans_error {} plans_excessive _, fun s r' hrun => ?_⟩
  · rw [Generator.run_of_plans_error {} plans_casual] at hrun
    cases congrArg Prod.fst hrun
  · rw [Generator.run_of_plans_error {} plans_excessive] at hrun
    cases congrArg Prod.fst hrun

end IntentGrammar
