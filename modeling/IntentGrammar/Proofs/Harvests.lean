import IntentGrammar.Proofs.Interruptions
import IntentGrammar.Proofs.Sinks

/-!
# What comes of intents

The generation of an intent counts what its stream yields, and hands it over later.  To tell the two
apart the generation is taken together with all that is yielded (`Generator.harvest`); the summary
is read off from that (`Generator.generateIntent_eq`), and so are the batches that the sink gets
(`Generator.batches`).

A sink may cancel the run with any batch.  For the stream this is a cancellation between two
searches, and a search finds what it would find without, or it is cancelled and finds nothing
(`next_cases`).  So what is yielded is a first part of what would be yielded, and all of it if the
stream does not say that it was cancelled (`Generator.exists_feeds`, `Generator.exists_reaps`).  A
run goes on like this until an intent is cancelled (`Generator.exists_reapsAll`), and without
cancellation it comes to the end of its plans (`Generator.run_harvests_of_steady`).
-/

namespace IntentGrammar

variable {σ τ : Type}

/-! ### To keep what is yielded -/

namespace Generator

variable (gen : Generator)

/-- Deliver the next `n` utterances of a stream and keep them. -/
def feed (plan : Plan gen.graph) (sink : Sink τ) :
    Nat → Stream → Emitter → Delivering τ (Stream × Emitter × List Labelled)
  | 0, s, e => return (s, e, [])
  | n + 1, s, e => do
    let r ← get
    let (found, s, c) := s.next (gen.pull? plan.intent) r.cancellation
    set { r with cancellation := c }
    match found with
    | none => return (s, e, [])
    | some (part, u) =>
      let (batch, e) := e.push part u
      batch.forM sink.deliver
      let (s, e, xs) ← feed plan sink n s e
      return (s, e, (part, u) :: xs)

theorem follows_feed {sink : Sink σ} {φ : σ → τ} {other : Sink τ} (h : sink.Substitute φ other)
    (plan : Plan gen.graph) (n : Nat) (s : Stream) (e : Emitter) :
    Follows φ (gen.feed plan sink n s e) (gen.feed plan other n s e) := by
  induction n generalizing s e with
  | zero => exact follows_pure _
  | succ n ih =>
    intro r a r' hrun
    rw [feed, run_get_bind] at hrun ⊢
    have hsame : (r.map φ).cancellation = r.cancellation := rfl
    rw [hsame]
    rcases hnext : s.next (gen.pull? plan.intent) r.cancellation with ⟨_ | x, s', c⟩
    · rw [hnext] at hrun
      exact follows_pure _ ⟨r.sink, c⟩ a r' hrun
    · rw [hnext] at hrun
      have hforM := h.forM (e.push x.1 x.2).1.toList
      rw [← Sink.forM_toList, ← Sink.forM_toList] at hforM
      exact (hforM.bind fun _ => (ih s' (e.push x.1 x.2).2).bind fun _ => follows_pure _)
        ⟨r.sink, c⟩ a r' hrun

/-- What is counted while utterances are delivered is how many of them are for a part. -/
theorem pump_eq (plan : Plan gen.graph) (sink : Sink τ) (n : Nat) (s : Stream) (e : Emitter)
    (training testing : Nat) :
    gen.pump plan sink n s e (training, testing)
      = (fun r => (r.1, r.2.1, training + (utterancesOf .training r.2.2).length,
          testing + (utterancesOf .testing r.2.2).length)) <$> gen.feed plan sink n s e := by
  induction n generalizing s e training testing with
  | zero =>
    rw [pump, feed, map_pure]
    rfl
  | succ n ih =>
    rw [pump, feed, map_bind]
    congr 1
    funext r
    rcases s.next (gen.pull? plan.intent) r.cancellation with ⟨_ | ⟨part, u⟩, s', c⟩
    · simp only [map_bind, map_pure]
      rfl
    · simp only [map_bind, map_pure]
      congr 1
      funext _
      congr 1
      funext _
      -- the utterance is counted before it is delivered, or together with those behind it
      cases part
      · simp only [ih, map_eq_pure_bind]
        congr 1
        funext r
        rw [utterancesOf_cons, utterancesOf_cons, if_pos rfl, if_neg nofun, List.length_cons,
          Nat.add_right_comm]
        rfl
      · simp only [ih, map_eq_pure_bind]
        congr 1
        funext r
        rw [utterancesOf_cons, utterancesOf_cons, if_neg nofun, if_pos rfl, List.length_cons,
          Nat.add_right_comm testing]
        rfl

end Generator

/-! ### One search -/

variable {pull? : Position → Option (Utterance × Position)}

/-- A search that may be cancelled comes to the same as without cancellation, or it is cancelled and
finds nothing. -/
theorem seek_eq_or_cancelled (s : Stream) (left : Nat) (position : Position) (c : Cancellation) :
    (s.seek pull? left position c).1 = (s.seek pull? left position .never).1 ∧
        (s.seek pull? left position c).2.1 = (s.seek pull? left position .never).2.1 ∨
      (s.seek pull? left position c).1 = none ∧
        (s.seek pull? left position c).2.1.cancelled = true := by
  induction left generalizing position c with
  | zero =>
    rcases hcheck : c.check with ⟨_ | _, c'⟩
    · left
      rw [Stream.seek, Stream.seek, hcheck]
      exact ⟨rfl, rfl⟩
    · right
      rw [Stream.seek, hcheck]
      exact ⟨rfl, rfl⟩
  | succ left ih =>
    rcases hcheck : c.check with ⟨_ | _, c'⟩
    · rw [Stream.seek, Stream.seek, hcheck]
      simp only [Cancellation.check]
      rcases pull? position with _ | ⟨u, position'⟩
      · exact .inl ⟨rfl, rfl⟩
      · simp only
        split
        · exact ih position' c'
        · exact .inl ⟨rfl, rfl⟩
    · right
      rw [Stream.seek, hcheck]
      exact ⟨rfl, rfl⟩

theorem next_eq_or_cancelled (pull? : Position → Option (Utterance × Position)) (s : Stream)
    (c : Cancellation) :
    (s.next pull? c).1 = (s.next pull? .never).1 ∧
        (s.next pull? c).2.1 = (s.next pull? .never).2.1 ∨
      (s.next pull? c).1 = none ∧ (s.next pull? c).2.1.cancelled = true := by
  rw [Stream.next, Stream.next]
  split
  · exact .inl ⟨rfl, rfl⟩
  · exact seek_eq_or_cancelled s s.left s.position c

/-- Without cancellation a search is not cancelled. -/
theorem cancelled_seek_never (s : Stream) (left : Nat) (position : Position) :
    (s.seek pull? left position .never).2.1.cancelled = s.cancelled := by
  induction left generalizing position with
  | zero => rfl
  | succ left ih =>
    rw [Stream.seek]
    simp only [Cancellation.check]
    rcases pull? position with _ | ⟨u, position'⟩
    · rfl
    · simp only
      split
      · exact ih position'
      · rfl

theorem cancelled_next_never (pull? : Position → Option (Utterance × Position)) (s : Stream) :
    (s.next pull? .never).2.1.cancelled = s.cancelled := by
  rw [Stream.next]
  split
  · rfl
  · exact cancelled_seek_never s s.left s.position

theorem next_calm {s s' : Stream} {found : Option Labelled} {c : Cancellation}
    (h : s.next pull? .never = (found, s', c)) : c = .never ∧ s'.cancelled = s.cancelled := by
  have hnever := next_never pull? s
  have hcancelled := cancelled_next_never pull? s
  rw [h] at hnever hcancelled
  exact ⟨hnever, hcancelled⟩

/-- A stream finds nothing, and if it was not cancelled then there is nothing; or it finds what it
would find without cancellation, and stands where it would stand. -/
theorem next_cases (pull? : Position → Option (Utterance × Position)) (s : Stream)
    (c : Cancellation) :
    (∃ s₁ c₁, s.next pull? c = (none, s₁, c₁) ∧
      (s₁.cancelled = false → (s.next pull? .never).1 = none)) ∨
    ∃ x s₁ c₁, s.next pull? c = (some x, s₁, c₁) ∧ s.next pull? .never = (some x, s₁, .never) := by
  have hsame := next_eq_or_cancelled pull? s c
  rcases hnext : s.next pull? c with ⟨_ | x, s₁, c₁⟩
  · refine .inl ⟨s₁, c₁, rfl, fun hopen => ?_⟩
    rw [hnext] at hsame
    rcases hsame with ⟨hfound, -⟩ | ⟨-, hcut⟩
    · exact hfound.symm
    · rw [hopen] at hcut
      cases hcut
  · rcases hwould : s.next pull? .never with ⟨found, s₁', c₁'⟩
    rw [hnext, hwould] at hsame
    rcases hsame with ⟨hfound, hstream⟩ | ⟨hnone, -⟩
    · obtain rfl : some x = found := hfound
      obtain rfl : s₁ = s₁' := hstream
      obtain rfl : c₁' = .never := (next_calm hwould).1
      exact .inr ⟨x, s₁, c₁, rfl, rfl⟩
    · cases hnone

/-- A stream that is cancelled before it starts yields nothing, and says so unless nothing was
wanted. -/
theorem next_now {s : Stream} (pull? : Position → Option (Utterance × Position))
    (hwanted : s.produced < s.target) :
    ∃ s', s.next pull? .now = (none, s', .now) ∧ s'.cancelled = true := by
  rw [Stream.next]
  split
  · next hclosed =>
    refine ⟨s, rfl, ?_⟩
    simp only [Bool.or_eq_true, decide_eq_true_eq] at hclosed
    rcases hclosed with hreached | hcancelled
    · omega
    · exact hcancelled
  · refine ⟨{ s with cancelled := true }, ?_, rfl⟩
    rw [Stream.seek]
    rfl

/-! ### Feeding a sink -/

namespace Generator

variable {gen : Generator} {plan : Plan gen.graph} {sink : Sink τ}

/-- A sink that has been fed from a stream, by an emitter `e`: `xs` has been yielded, a first part
of what there is, and all of it unless the stream was cancelled; and the sink has got what the
emitter made of it. -/
structure Feeds (plan : Plan gen.graph) (sink : Sink τ) (n : Nat) (s : Stream) (e : Emitter)
    (r : Receiving τ) (s' : Stream) (xs : List Labelled) (r' : Receiving τ) : Prop where
  run : (gen.feed plan sink n s e).run.run r = (.ok (s', (e.pushAll xs).2, xs), r')
  got : r'.sink = sink.after r.sink (e.pushAll xs).1
  first : xs <+: (s.take (gen.pull? plan.intent) n .never).1
  all : s'.cancelled = false → xs = (s.take (gen.pull? plan.intent) n .never).1
  calm : sink.Steady → r.cancellation = .never →
    r'.cancellation = .never ∧ s'.cancelled = s.cancelled

variable {n : Nat} {s s₁ s' : Stream} {e : Emitter} {r r' : Receiving τ} {c c₁ : Cancellation}

/-- A stream that yields nothing has come to its end, or it was cancelled. -/
theorem Feeds.stop (hnext : s.next (gen.pull? plan.intent) r.cancellation = (none, s₁, c₁))
    (hend : s₁.cancelled = false → (s.next (gen.pull? plan.intent) .never).1 = none) :
    Feeds plan sink (n + 1) s e r s₁ [] { r with cancellation := c₁ } where
  run := by
    rw [feed, run_get_bind, hnext]
    rfl
  got := rfl
  first := List.nil_prefix
  all := by
    intro hopen
    have hnone := hend hopen
    rw [Stream.take]
    split
    · rfl
    · next hsome =>
      rw [hsome] at hnone
      cases hnone
  calm := by
    intro _ hnever
    rw [hnever] at hnext
    exact next_calm hnext

/-- A stream that yields an utterance is fed from as if this were its start. -/
theorem Feeds.cons {x : Labelled} {xs : List Labelled}
    (hnext : s.next (gen.pull? plan.intent) r.cancellation = (some x, s₁, c₁))
    (hwould : s.next (gen.pull? plan.intent) .never = (some x, s₁, .never))
    (hdeliver : ((e.push x.1 x.2).1.toList.forM sink.deliver).run.run { r with cancellation := c₁ }
      = (.ok (), ⟨sink.after r.sink (e.push x.1 x.2).1.toList, c⟩))
    (hcalm : sink.Steady → c = c₁)
    (h : Feeds plan sink n s₁ (e.push x.1 x.2).2
      ⟨sink.after r.sink (e.push x.1 x.2).1.toList, c⟩ s' xs r') :
    Feeds plan sink (n + 1) s e r s' (x :: xs) r' := by
  have htake : (s.take (gen.pull? plan.intent) (n + 1) .never).1
      = x :: (s₁.take (gen.pull? plan.intent) n .never).1 := by
    rw [Stream.take, hwould]
  exact {
    run := by
      rw [feed, run_get_bind, hnext, run_set_bind]
      simp only [Sink.forM_toList]
      rw [run_bind_of_ok hdeliver, run_bind_of_ok h.run]
      rfl
    got := by
      rw [h.got, ← Sink.after_append]
      rfl
    first := by
      rw [htake]
      exact List.cons_prefix_cons.mpr ⟨rfl, h.first⟩
    all := by
      intro hopen
      rw [htake, h.all hopen]
    calm := by
      intro hsteady hnever
      rw [hnever] at hnext
      obtain ⟨hnone, hkept⟩ := next_calm hnext
      obtain ⟨hend, hkept'⟩ := h.calm hsteady ((hcalm hsteady).trans hnone)
      exact ⟨hend, hkept'.trans hkept⟩ }

/-- **A willing sink is fed**, whenever it cancels the run. -/
theorem exists_feeds (hsink : sink.Willing) (plan : Plan gen.graph) (n : Nat) (s : Stream)
    (e : Emitter) (r : Receiving τ) : ∃ s' xs r', Feeds plan sink n s e r s' xs r' := by
  induction n generalizing s e r with
  | zero =>
    exact ⟨s, [], r, {
      run := rfl
      got := rfl
      first := List.nil_prefix
      all := fun _ => rfl
      calm := fun _ hnever => ⟨hnever, rfl⟩ }⟩
  | succ n ih =>
    rcases next_cases (gen.pull? plan.intent) s r.cancellation with
      ⟨s₁, c₁, hnext, hend⟩ | ⟨x, s₁, c₁, hnext, hwould⟩
    · exact ⟨s₁, [], _, .stop hnext hend⟩
    · obtain ⟨c, hdeliver, hcalm⟩ :=
        hsink.run_forM (e.push x.1 x.2).1.toList { r with cancellation := c₁ }
      obtain ⟨s', xs, r', h⟩ := ih s₁ (e.push x.1 x.2).2
        ⟨sink.after r.sink (e.push x.1 x.2).1.toList, c⟩
      exact ⟨s', x :: xs, r', .cons hnext hwould hdeliver hcalm h⟩

end Generator

/-! ### Harvests -/

/-- What came of an intent: what its stream has yielded, and whether it was cancelled. -/
structure Harvest (g : Graph) where
  plan : Plan g
  yielded : List Labelled
  cancelled : Bool

namespace Harvest

variable {g : Graph}

/-- The numbers of utterances, and the warning if there are fewer than requested and the reason is
not that the intent was cancelled. -/
def summary (h : Harvest g) : IntentSummary :=
  let training := (utterancesOf .training h.yielded).length
  let testing := (utterancesOf .testing h.yielded).length
  let warnings := match h.plan.requested with
    | some requested =>
      if !h.cancelled && training + testing < requested then
        [⟨h.plan.name, requested, training + testing⟩]
      else []
    | none => []
  { intent := h.plan.name, strategy := h.plan.strategy, training, testing, warnings,
    cancelled := h.cancelled }

end Harvest

namespace Generator

variable (gen : Generator)

/-- The emitter for an intent, for a sink that takes batches at any time or not. -/
def emitter (plan : Plan gen.graph) (incremental : Bool) : Emitter :=
  { intent := plan.name, batchSize := gen.settings.batchSize, incremental }

/-- Generate one intent and keep what is yielded. -/
def harvest (plan : Plan gen.graph) (sink : Sink τ) : Delivering τ (Harvest gen.graph) := do
  let r ← get
  let (s, c) := gen.stream plan r.cancellation
  set { r with cancellation := c }
  let (s, e, xs) ← gen.feed plan sink (s.target - s.produced) s (gen.emitter plan sink.incremental)
  e.finish.forM sink.deliver
  return ⟨plan, xs, s.cancelled⟩

/-- Generate the intents of the plans up to the first that is cancelled and keep what is yielded. -/
def harvests (sink : Sink τ) : List (Plan gen.graph) → Delivering τ (List (Harvest gen.graph))
  | [] => return []
  | plan :: plans => do
    let h ← gen.harvest plan sink
    if h.cancelled then return [h]
    else return h :: (← harvests sink plans)

theorem generateIntent_eq (plan : Plan gen.graph) (sink : Sink τ) :
    gen.generateIntent plan sink = Harvest.summary <$> gen.harvest plan sink := by
  rw [generateIntent, harvest, map_bind]
  congr 1
  funext r
  rcases gen.stream plan r.cancellation with ⟨s, c⟩
  simp only [pump_eq, map_eq_pure_bind, bind_assoc, pure_bind, Nat.zero_add]
  rfl

theorem runPlans_eq (sink : Sink τ) (plans : List (Plan gen.graph)) :
    gen.runPlans sink plans = List.map Harvest.summary <$> gen.harvests sink plans := by
  induction plans with
  | nil => rw [runPlans, harvests, map_pure]; rfl
  | cons plan plans ih =>
    rw [runPlans, harvests, generateIntent_eq, ih]
    simp only [map_eq_pure_bind, bind_assoc, pure_bind]
    congr 1
    funext h
    have hcancelled : h.summary.cancelled = h.cancelled := rfl
    rw [hcancelled]
    split
    · rfl
    · simp only [bind_assoc, pure_bind]
      rfl

theorem follows_harvest {sink : Sink σ} {φ : σ → τ} {other : Sink τ} (h : sink.Substitute φ other)
    (plan : Plan gen.graph) : Follows φ (gen.harvest plan sink) (gen.harvest plan other) := by
  intro r a r' hrun
  rw [harvest, run_get_bind] at hrun ⊢
  have hsame : (r.map φ).cancellation = r.cancellation := rfl
  rw [hsame, h.incremental]
  rcases hstream : gen.stream plan r.cancellation with ⟨s, c⟩
  rw [hstream] at hrun
  have hfeed := gen.follows_feed h plan (s.target - s.produced) s
    (gen.emitter plan sink.incremental)
  exact (hfeed.bind fun t => (h.forM t.2.1.finish).bind fun _ => follows_pure _)
    ⟨r.sink, c⟩ a r' hrun

theorem follows_harvests {sink : Sink σ} {φ : σ → τ} {other : Sink τ}
    (h : sink.Substitute φ other) (plans : List (Plan gen.graph)) :
    Follows φ (gen.harvests sink plans) (gen.harvests other plans) := by
  induction plans with
  | nil => exact follows_pure _
  | cons plan plans ih =>
    refine (gen.follows_harvest h plan).bind fun h => ?_
    split
    · exact follows_pure _
    · exact ih.bind fun _ => follows_pure _

/-- The batches in which the utterances of an intent are handed over. -/
def batches (incremental : Bool) (h : Harvest gen.graph) : List Batch :=
  (gen.emitter h.plan incremental).handed h.yielded

variable {gen} {plan : Plan gen.graph} {sink : Sink τ}

/-- An intent that has been generated: what was yielded is a first part of what the plan comes to,
and all of it unless the intent was cancelled; and the sink has got the batches of it. -/
structure Reaps (plan : Plan gen.graph) (sink : Sink τ) (r : Receiving τ) (h : Harvest gen.graph)
    (r' : Receiving τ) : Prop where
  run : (gen.harvest plan sink).run.run r = (.ok h, r')
  plan_eq : h.plan = plan
  got : r'.sink = sink.after r.sink (gen.batches sink.incremental h)
  first : h.yielded <+: (gen.outcome plan .never).1
  all : h.cancelled = false → h.yielded = (gen.outcome plan .never).1
  calm : sink.Steady → r.cancellation = .never → r'.cancellation = .never ∧ h.cancelled = false

/-- The stream of a plan is the one without cancellation, or the cancellation is over. -/
theorem stream_eq_or_now (plan : Plan gen.graph) (c : Cancellation) :
    (gen.stream plan c).1 = (gen.stream plan .never).1 ∨ (gen.stream plan c).2 = .now := by
  rcases c with _ | checks
  · exact .inl rfl
  · rw [stream, stream]
    rcases interrupts_fitSplit gen plan checks with ⟨checks', hfit⟩ | hnow
    · left
      rw [hfit]
    · exact .inr hnow

theorem stream_never (plan : Plan gen.graph) : (gen.stream plan .never).2 = .never := by
  rw [stream, fitSplit_never]

/-- What has been yielded is what the stream without cancellation yields, or a first part of it. -/
theorem Feeds.outcome {c : Cancellation} {s' : Stream} {xs : List Labelled} {r r' : Receiving τ}
    {e : Emitter}
    (h : Feeds plan sink ((gen.stream plan c).1.target - (gen.stream plan c).1.produced)
      (gen.stream plan c).1 e { r with cancellation := (gen.stream plan c).2 } s' xs r') :
    xs <+: (gen.outcome plan .never).1 ∧
      (s'.cancelled = false → xs = (gen.outcome plan .never).1) := by
  have htarget : (gen.stream plan c).1.target - (gen.stream plan c).1.produced = plan.target := rfl
  have houtcome : (gen.outcome plan .never).1
      = ((gen.stream plan .never).1.take (gen.pull? plan.intent) plan.target .never).1 := by
    rw [Generator.outcome, stream_never]
    rfl
  rw [htarget] at h
  rw [houtcome]
  rcases stream_eq_or_now plan c with hsame | hnow
  · rw [← hsame]
    exact ⟨h.first, h.all⟩
  · -- the count in advance was cut short, and so nothing is yielded
    have hrun := h.run
    rw [hnow] at hrun
    rcases hwanted : plan.target with _ | n
    · rw [hwanted, feed] at hrun
      obtain rfl : [] = xs := congrArg (fun t => t.2.2) (eq_of_run_pure hrun)
      exact ⟨List.nil_prefix, fun _ => rfl⟩
    · obtain ⟨s₁, hnext, hcancelled⟩ :=
        next_now (s := (gen.stream plan c).1) (gen.pull? plan.intent) (by
          show 0 < plan.target
          omega)
      rw [hwanted, feed, run_get_bind, hnext] at hrun
      simp only [run_set_bind] at hrun
      have hend := eq_of_run_pure hrun
      obtain rfl : s₁ = s' := congrArg Prod.fst hend
      obtain rfl : [] = xs := congrArg (fun t => t.2.2) hend
      exact ⟨List.nil_prefix, fun hopen =>
        absurd (hopen.symm.trans hcancelled) Bool.false_ne_true⟩

/-- **An intent is generated** for a willing sink, whenever it is cancelled. -/
theorem exists_reaps (hsink : sink.Willing) (plan : Plan gen.graph) (r : Receiving τ) :
    ∃ h r', Reaps plan sink r h r' := by
  obtain ⟨s', xs, r', h⟩ := exists_feeds hsink plan _ (gen.stream plan r.cancellation).1
    (gen.emitter plan sink.incremental)
    { r with cancellation := (gen.stream plan r.cancellation).2 }
  obtain ⟨hfirst, hall⟩ := h.outcome
  -- what is still waiting is handed over also when the intent was cancelled
  obtain ⟨c', hfinish, hc'⟩ :=
    hsink.run_forM ((gen.emitter plan sink.incremental).pushAll xs).2.finish r'
  refine ⟨⟨plan, xs, s'.cancelled⟩,
    ⟨sink.after r'.sink ((gen.emitter plan sink.incremental).pushAll xs).2.finish, c'⟩, {
    run := ?_
    plan_eq := rfl
    got := ?_
    first := hfirst
    all := hall
    calm := ?_ }⟩
  · rw [harvest, run_get_bind]
    simp only
    rw [run_set_bind, run_bind_of_ok h.run, run_bind_of_ok hfinish]
    rfl
  · rw [h.got, ← Sink.after_append]
    rfl
  · intro hsteady hnever
    obtain ⟨hend, hkept⟩ := h.calm hsteady (by rw [hnever]; exact stream_never plan)
    exact ⟨(hc' hsteady).trans hend, hkept⟩

/-- An intent that has been generated has been generated as for a willing sink. -/
theorem exists_reaps_of_run {r r' : Receiving τ} {i : IntentSummary}
    (hrun : (gen.generateIntent plan sink).run.run r = (.ok i, r')) :
    ∃ h, Reaps plan sink.obliging r h r' ∧ h.summary = i := by
  rw [generateIntent_eq, map_eq_pure_bind] at hrun
  obtain ⟨h, r₁, hharvest, hsummary⟩ := exists_of_run_bind_eq_ok hrun
  obtain rfl : h.summary = i := eq_of_run_pure hsummary
  obtain rfl : r₁ = r' := congrArg Prod.snd hsummary
  -- nothing has been refused, so a sink that never refuses comes to the same
  obtain ⟨h', r', hreaps⟩ := exists_reaps sink.willing_obliging plan r
  have hsame := (gen.follows_harvest sink.substitute_obliging plan r h r₁ hharvest).symm.trans
    hreaps.run
  obtain rfl : h = h' := Except.ok.inj (congrArg Prod.fst hsame)
  obtain rfl : r₁ = r' := congrArg Prod.snd hsame
  exact ⟨h, hreaps, rfl⟩

/-- A run over plans: intents are generated in order, up to one that is cancelled. -/
structure ReapsAll (plans : List (Plan gen.graph)) (sink : Sink τ) (r : Receiving τ)
    (hs : List (Harvest gen.graph)) (r' : Receiving τ) : Prop where
  run : (gen.harvests sink plans).run.run r = (.ok hs, r')
  planned : hs.map (·.plan) <+: plans
  got : r'.sink = sink.after r.sink (hs.flatMap (gen.batches sink.incremental))
  first : ∀ h ∈ hs, h.yielded <+: (gen.outcome h.plan .never).1
  all : ∀ h ∈ hs, h.cancelled = false → h.yielded = (gen.outcome h.plan .never).1
  before_last : ∀ h ∈ hs.dropLast, h.cancelled = false
  complete : (∀ h ∈ hs, h.cancelled = false) → hs.map (·.plan) = plans

variable {plans : List (Plan gen.graph)} {r r₁ r' : Receiving τ} {h : Harvest gen.graph}
  {hs : List (Harvest gen.graph)}

/-- A run goes on behind an intent that was not cancelled. -/
theorem ReapsAll.cons (hreaps : Reaps plan sink r h r₁) (hopen : h.cancelled = false)
    (hrest : ReapsAll plans sink r₁ hs r') :
    ReapsAll (plan :: plans) sink r (h :: hs) r' := by
  obtain rfl := hreaps.plan_eq
  exact {
    run := by
      rw [harvests, run_bind_of_ok hreaps.run, if_neg (by rw [hopen]; nofun),
        run_bind_of_ok hrest.run]
      rfl
    planned := List.cons_prefix_cons.mpr ⟨rfl, hrest.planned⟩
    got := by rw [hrest.got, hreaps.got, List.flatMap_cons, Sink.after_append]
    first := List.forall_mem_cons.mpr ⟨hreaps.first, hrest.first⟩
    all := List.forall_mem_cons.mpr ⟨hreaps.all, hrest.all⟩
    before_last := by
      intro h' hmem
      rcases hs with _ | ⟨h₁, hs⟩
      · cases hmem
      · rw [List.dropLast_cons_cons, List.mem_cons] at hmem
        rcases hmem with rfl | hmem
        · exact hopen
        · exact hrest.before_last h' hmem
    complete := by
      intro hall
      rw [List.map_cons, hrest.complete (List.forall_mem_cons.mp hall).2] }

/-- A run stops behind an intent that was cancelled. -/
theorem Reaps.reapsAll (hreaps : Reaps plan sink r h r') (hcancelled : h.cancelled = true) :
    ReapsAll (plan :: plans) sink r [h] r' := by
  obtain rfl := hreaps.plan_eq
  exact {
    run := by
      rw [harvests, run_bind_of_ok hreaps.run, if_pos hcancelled]
      rfl
    planned := List.cons_prefix_cons.mpr ⟨rfl, List.nil_prefix⟩
    got := by rw [hreaps.got, List.flatMap_singleton]
    first := List.forall_mem_singleton.mpr hreaps.first
    all := List.forall_mem_singleton.mpr hreaps.all
    before_last := nofun
    complete := by
      intro hopen
      rw [List.forall_mem_singleton.mp hopen] at hcancelled
      cases hcancelled }

/-- **Intents are generated** for a willing sink up to one that is cancelled. -/
theorem exists_reapsAll (hsink : sink.Willing) (plans : List (Plan gen.graph)) (r : Receiving τ) :
    ∃ hs r', ReapsAll plans sink r hs r' := by
  induction plans generalizing r with
  | nil =>
    exact ⟨[], r, {
      run := rfl
      planned := List.nil_prefix
      got := rfl
      first := nofun
      all := nofun
      before_last := nofun
      complete := fun _ => rfl }⟩
  | cons plan plans ih =>
    obtain ⟨h, r₁, hreaps⟩ := exists_reaps hsink plan r
    rcases hcancelled : h.cancelled with _ | _
    · obtain ⟨hs, r', hrest⟩ := ih r₁
      exact ⟨h :: hs, r', .cons hreaps hcancelled hrest⟩
    · exact ⟨[h], r₁, hreaps.reapsAll hcancelled⟩

/-! ### Without cancellation -/

/-- What comes of a plan without cancellation. -/
def fullHarvest (gen : Generator) (plan : Plan gen.graph) : Harvest gen.graph :=
  ⟨plan, (gen.outcome plan .never).1, false⟩

/-- The batches of a plan without cancellation. -/
def fullBatches (gen : Generator) (incremental : Bool) (plan : Plan gen.graph) : List Batch :=
  gen.batches incremental (gen.fullHarvest plan)

theorem run_harvest_of_steady (hsink : sink.Steady) (plan : Plan gen.graph) (s : τ) :
    (gen.harvest plan sink).run.run ⟨s, .never⟩
      = (.ok (gen.fullHarvest plan),
          ⟨sink.after s (gen.fullBatches sink.incremental plan), .never⟩) := by
  obtain ⟨⟨plan', xs, cancelled⟩, ⟨s', c⟩, h⟩ := exists_reaps hsink.willing plan ⟨s, .never⟩
  obtain ⟨rfl, rfl⟩ := h.calm hsink rfl
  obtain rfl : plan' = plan := h.plan_eq
  obtain rfl : xs = (gen.outcome plan' .never).1 := h.all rfl
  obtain rfl := h.got
  exact h.run

theorem run_generateIntent_of_steady (hsink : sink.Steady) (plan : Plan gen.graph) (s : τ) :
    (gen.generateIntent plan sink).run.run ⟨s, .never⟩
      = (.ok (gen.fullHarvest plan).summary,
          ⟨sink.after s (gen.fullBatches sink.incremental plan), .never⟩) := by
  rw [generateIntent_eq, run_map_of_ok (run_harvest_of_steady hsink plan s)]

theorem run_harvests_of_steady (hsink : sink.Steady) (plans : List (Plan gen.graph)) (s : τ) :
    (gen.harvests sink plans).run.run ⟨s, .never⟩
      = (.ok (plans.map gen.fullHarvest),
          ⟨sink.after s (plans.flatMap (gen.fullBatches sink.incremental)), .never⟩) := by
  induction plans generalizing s with
  | nil => rfl
  | cons plan plans ih =>
    rw [harvests, run_bind_of_ok (run_harvest_of_steady hsink plan s), if_neg nofun,
      run_bind_of_ok (ih _), List.flatMap_cons, Sink.after_append]
    rfl

end Generator

end IntentGrammar
