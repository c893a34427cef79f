import IntentGrammar.Proofs.Interleavings
import IntentGrammar.Settings
import Mathlib.Logic.Relation

/-!
# Workers and their channel

Jobs wait for a worker, of which there are only so many.  A job that has one sends what it has, one
message after the other, into a channel that holds only so many messages; a full channel makes it
wait.  At the other end messages are received in the order in which they were sent.

Which job is next is left open, so a run is any sequence of steps (`Traffic.Step`).  Whatever the
sequence, the messages are received in an interleaving of those of the jobs
(**`WorkerSettings.Delivers.interleaves`**), and no sequence gets stuck
(**`Traffic.exists_finished`**): with a worker and room for one message there is always a step until
all jobs are done, and every step leaves less to do.  With a worker for every job nothing else is
said of the order, for any interleaving can be received (**`WorkerSettings.delivers_iff`**).
-/

namespace IntentGrammar

variable {α : Type}

/-- A job on its way, with the messages that it has not sent. -/
inductive Errand (α : Type) where
  | waiting (messages : List α)
  | sending (messages : List α)
  | done

namespace Errand

/-- The messages that have not been sent. -/
def unsent : Errand α → List α
  | waiting messages => messages
  | sending messages => messages
  | done => []

/-- The job has a worker. -/
def isSending : Errand α → Bool
  | sending _ => true
  | _ => false

/-- How many steps the job and its messages still take. -/
def steps : Errand α → Nat
  | waiting messages => 2 * messages.length + 2
  | sending messages => 2 * messages.length + 1
  | done => 0

end Errand

/-- Jobs, what is in the channel, and what has been received. -/
structure Traffic (α : Type) where
  jobs : List (Errand α)
  channel : List α
  received : List α

namespace Traffic

/-- One step with so many workers and so much room in the channel. -/
inductive Step (workers capacity : Nat) : Traffic α → Traffic α → Prop
  | start {before after : List (Errand α)} {messages channel received : List α} :
      (before ++ .waiting messages :: after).countP Errand.isSending < workers →
      Step workers capacity ⟨before ++ .waiting messages :: after, channel, received⟩
        ⟨before ++ .sending messages :: after, channel, received⟩
  | send {before after : List (Errand α)} {m : α} {messages channel received : List α} :
      channel.length < capacity →
      Step workers capacity ⟨before ++ .sending (m :: messages) :: after, channel, received⟩
        ⟨before ++ .sending messages :: after, channel ++ [m], received⟩
  | leave {before after : List (Errand α)} {channel received : List α} :
      Step workers capacity ⟨before ++ .sending [] :: after, channel, received⟩
        ⟨before ++ .done :: after, channel, received⟩
  | receive {jobs : List (Errand α)} {m : α} {channel received : List α} :
      Step workers capacity ⟨jobs, m :: channel, received⟩ ⟨jobs, channel, received ++ [m]⟩

/-- Any number of steps. -/
abbrev Steps (workers capacity : Nat) : Traffic α → Traffic α → Prop :=
  Relation.ReflTransGen (Step workers capacity)

/-- All jobs are done, and the channel is empty. -/
def Finished (t : Traffic α) : Prop := (∀ job ∈ t.jobs, job = .done) ∧ t.channel = []

/-- All jobs are waiting. -/
def initial (lists : List (List α)) : Traffic α := ⟨lists.map .waiting, [], []⟩

variable {workers capacity : Nat} {t t' : Traffic α}

/-! ### What is received -/

/-- What is received until the end: what the channel holds, and then an interleaving of what has not
been sent. -/
theorem Steps.exists_interleaves (h : Steps workers capacity t t') (hend : t'.Finished) :
    ∃ log, Interleaves (t.jobs.map Errand.unsent) log ∧
      t'.received = t.received ++ t.channel ++ log := by
  induction h using Relation.ReflTransGen.head_induction_on with
  | refl =>
    obtain ⟨hdone, hempty⟩ := hend
    refine ⟨[], .done ?_, by rw [hempty, List.append_nil, List.append_nil]⟩
    intro l hl
    obtain ⟨job, hjob, rfl⟩ := List.mem_map.mp hl
    rw [hdone job hjob]
    rfl
  | head hstep _ ih =>
    -- only a message that is sent counts: it is the next of its job, and the rest comes behind it
    obtain ⟨log, hlog, hreceived⟩ := ih
    cases hstep with
    | start | leave =>
      rw [List.map_append] at hlog ⊢
      exact ⟨log, hlog, hreceived⟩
    | @send before after m messages channel received =>
      rw [List.map_append] at hlog ⊢
      refine ⟨m :: log, hlog.take, ?_⟩
      rw [hreceived]
      simp
    | receive =>
      refine ⟨log, hlog, ?_⟩
      rw [hreceived]
      simp

/-! ### Every run ends -/

/-- How many steps there are at most. -/
def steps (t : Traffic α) : Nat := t.channel.length + (t.jobs.map Errand.steps).foldr (· + ·) 0

theorem foldr_steps_append (jobs jobs' : List (Errand α)) :
    ((jobs ++ jobs').map Errand.steps).foldr (· + ·) 0
      = (jobs.map Errand.steps).foldr (· + ·) 0 + (jobs'.map Errand.steps).foldr (· + ·) 0 := by
  induction jobs with
  | nil => simp
  | cons job jobs ih =>
    rw [List.cons_append, List.map_cons, List.foldr_cons, ih, List.map_cons, List.foldr_cons,
      Nat.add_assoc]

theorem Step.steps_lt (h : Step workers capacity t t') : t'.steps < t.steps := by
  cases h <;>
    simp only [steps, foldr_steps_append, List.map_cons, List.foldr_cons, Errand.steps,
      List.length_cons, List.length_append, List.length_nil] <;> omega

/-- As long as something is left to do, there is a step. -/
theorem exists_step (hworkers : 1 ≤ workers) (hcapacity : 1 ≤ capacity) (h : ¬ t.Finished) :
    ∃ t', Step workers capacity t t' := by
  obtain ⟨jobs, channel, received⟩ := t
  rcases channel with _ | ⟨m, channel⟩
  · by_cases hbusy : ∃ job ∈ jobs, job.isSending
    · -- a job with a worker sends or leaves, for there is room
      obtain ⟨job, hjob, hsending⟩ := hbusy
      obtain ⟨before, after, rfl⟩ := List.append_of_mem hjob
      rcases job with messages | ⟨_ | ⟨m, messages⟩⟩ | _
      · cases hsending
      · exact ⟨_, .leave⟩
      · exact ⟨_, .send hcapacity⟩
      · cases hsending
    · -- no job has a worker, so one that waits gets one
      have hnone : jobs.countP Errand.isSending = 0 := by
        rw [List.countP_eq_zero]
        exact fun job hjob hsending => hbusy ⟨job, hjob, hsending⟩
      have hwaiting : ∃ job ∈ jobs, job ≠ .done := by
        by_contra hdone
        push Not at hdone
        exact h ⟨hdone, rfl⟩
      obtain ⟨job, hjob, hleft⟩ := hwaiting
      obtain ⟨before, after, rfl⟩ := List.append_of_mem hjob
      rcases job with messages | messages | _
      · exact ⟨_, .start (by omega)⟩
      · exact absurd ⟨_, hjob, rfl⟩ hbusy
      · exact absurd rfl hleft
  · exact ⟨_, .receive⟩

/-- **No sequence of steps gets stuck**: wherever it has come to, it can be brought to an end. -/
theorem exists_finished (hworkers : 1 ≤ workers) (hcapacity : 1 ≤ capacity) (t : Traffic α) :
    ∃ t', Steps workers capacity t t' ∧ t'.Finished := by
  induction hn : t.steps using Nat.strongRecOn generalizing t with
  | ind n ih =>
    by_cases hend : t.Finished
    · exact ⟨t, .refl, hend⟩
    · obtain ⟨t₁, hstep⟩ := exists_step hworkers hcapacity hend
      obtain ⟨t', hsteps, hend'⟩ := ih t₁.steps (hn ▸ hstep.steps_lt) t₁ rfl
      exact ⟨t', .head hstep hsteps, hend'⟩

end Traffic

/-! ### What workers deliver -/

/-- The messages of jobs can be received in this order. -/
def WorkerSettings.Delivers (w : WorkerSettings) (lists : List (List α)) (log : List α) : Prop :=
  ∃ t, Traffic.Steps w.workers w.channelCapacity (.initial lists) t ∧ t.Finished ∧ t.received = log

variable {w : WorkerSettings} {lists : List (List α)} {log : List α}

/-- **What workers deliver** is an interleaving of what the jobs send. -/
theorem WorkerSettings.Delivers.interleaves (h : w.Delivers lists log) : Interleaves lists log := by
  obtain ⟨t, hsteps, hend, rfl⟩ := h
  obtain ⟨log, hlog, hreceived⟩ := hsteps.exists_interleaves hend
  have hlists : (Traffic.initial lists).jobs.map Errand.unsent = lists := by
    rw [Traffic.initial, List.map_map]
    exact List.map_id _
  rw [hreceived, ← hlists]
  exact hlog

/-! ### Orders that are possible -/

/-- A job that has a worker can send all it has before any other gets one. -/
theorem Traffic.steps_sending {workers capacity : Nat} (hcapacity : 1 ≤ capacity)
    (before after : List (Errand α)) (messages received : List α) :
    Steps workers capacity ⟨before ++ .sending messages :: after, [], received⟩
      ⟨before ++ .done :: after, [], received ++ messages⟩ := by
  induction messages generalizing received with
  | nil =>
    rw [List.append_nil]
    exact .single .leave
  | cons m messages ih =>
    have hrest := ih (received ++ [m])
    rw [List.append_assoc] at hrest
    exact .head (.send hcapacity) (.head .receive hrest)

/-- One job after the other can get a worker and be done before the next. -/
theorem Traffic.steps_waiting {workers capacity : Nat} (hworkers : 1 ≤ workers)
    (hcapacity : 1 ≤ capacity) (before : List (Errand α)) (hbefore : ∀ job ∈ before, job = .done)
    (lists : List (List α)) (received : List α) :
    Steps workers capacity ⟨before ++ lists.map .waiting, [], received⟩
      ⟨before ++ lists.map fun _ => .done, [], received ++ lists.flatten⟩ := by
  induction lists generalizing before received with
  | nil =>
    rw [List.flatten_nil, List.append_nil]
    exact .refl
  | cons messages lists ih =>
    -- the jobs before are done and those behind are waiting, so a worker is free
    have hidle : (before ++ Errand.waiting messages :: lists.map Errand.waiting).countP
        Errand.isSending = 0 := by
      rw [List.countP_eq_zero]
      intro job hjob
      rcases List.mem_append.mp hjob with hjob | hjob
      · rw [hbefore job hjob]
        nofun
      · rw [← List.map_cons] at hjob
        obtain ⟨_, -, rfl⟩ := List.mem_map.mp hjob
        nofun
    have hfirst : Steps workers capacity ⟨before ++ (messages :: lists).map .waiting, [], received⟩
        ⟨before ++ .done :: lists.map .waiting, [], received ++ messages⟩ :=
      .head (.start (by omega)) (steps_sending hcapacity before _ messages received)
    have hrest := ih (before ++ [.done]) (by
      intro job hjob
      rcases List.mem_append.mp hjob with hjob | hjob
      · exact hbefore job hjob
      · exact List.mem_singleton.mp hjob) (received ++ messages)
    rw [List.append_assoc, List.append_assoc, List.append_assoc] at hrest
    exact hfirst.trans hrest

/-- The workers may deliver job by job. -/
theorem WorkerSettings.delivers_flatten (hworkers : 1 ≤ w.workers)
    (hcapacity : 1 ≤ w.channelCapacity) (lists : List (List α)) :
    w.Delivers lists lists.flatten := by
  have hsteps := Traffic.steps_waiting hworkers hcapacity [] nofun lists []
  refine ⟨_, hsteps, ⟨?_, rfl⟩, rfl⟩
  intro job hjob
  obtain ⟨_, -, rfl⟩ := List.mem_map.mp hjob
  rfl

/-- Jobs get workers one after the other, as long as there is one for each. -/
theorem Traffic.steps_start {workers capacity : Nat} (busy lists : List (List α))
    (hworkers : busy.length + lists.length ≤ workers) (received : List α) :
    Steps workers capacity ⟨busy.map .sending ++ lists.map .waiting, [], received⟩
      ⟨busy.map .sending ++ lists.map .sending, [], received⟩ := by
  induction lists generalizing busy with
  | nil => exact .refl
  | cons messages lists ih =>
    have hfree : (busy.map Errand.sending ++
        Errand.waiting messages :: lists.map Errand.waiting).countP Errand.isSending < workers := by
      have hidle : (lists.map Errand.waiting).countP Errand.isSending = 0 := by
        rw [List.countP_eq_zero, List.forall_mem_map]
        exact fun _ _ => Bool.false_ne_true
      have hbusy : (busy.map Errand.sending).countP Errand.isSending ≤ busy.length := by
        rw [← List.length_map Errand.sending]
        exact List.countP_le_length
      rw [List.countP_append, List.countP_cons_of_neg Bool.false_ne_true, hidle]
      rw [List.length_cons] at hworkers
      omega
    have hrest := ih (busy ++ [messages]) (by simp at hworkers ⊢; omega)
    rw [List.map_append, List.append_assoc, List.append_assoc] at hrest
    exact .head (.start hfree) hrest

/-- Jobs that have sent all they had leave. -/
theorem Traffic.steps_leave {workers capacity : Nat} (before : List (Errand α))
    {lists : List (List α)} (hempty : ∀ l ∈ lists, l = []) (received : List α) :
    Steps workers capacity ⟨before ++ lists.map .sending, [], received⟩
      ⟨before ++ lists.map fun _ => .done, [], received⟩ := by
  induction lists generalizing before with
  | nil => exact .refl
  | cons messages lists ih =>
    obtain ⟨rfl, hothers⟩ := List.forall_mem_cons.mp hempty
    have hrest := ih (before ++ [.done]) hothers
    rw [List.append_assoc, List.append_assoc] at hrest
    exact .head .leave hrest

/-- Jobs that have workers can send in any order. -/
theorem Traffic.steps_of_interleaves {workers capacity : Nat} (hcapacity : 1 ≤ capacity)
    (h : Interleaves lists log) (received : List α) :
    Steps workers capacity ⟨lists.map .sending, [], received⟩
      ⟨lists.map fun _ => .done, [], received ++ log⟩ := by
  induction h generalizing received with
  | done hempty =>
    rw [List.append_nil]
    exact steps_leave [] hempty received
  | @take before after l log a _ ih =>
    -- what is sent is received before anything else is sent
    have hrest := ih (received ++ [a])
    rw [List.append_assoc, List.map_append, List.map_append] at hrest
    rw [List.map_append, List.map_append]
    exact .head (.send hcapacity) (.head .receive hrest)

/-- **With a worker for every job** the messages can be received in just the interleavings. -/
theorem WorkerSettings.delivers_iff (hworkers : lists.length ≤ w.workers)
    (hcapacity : 1 ≤ w.channelCapacity) : w.Delivers lists log ↔ Interleaves lists log := by
  refine ⟨Delivers.interleaves, fun h => ?_⟩
  have hstart : Traffic.Steps w.workers w.channelCapacity (.initial lists)
      ⟨lists.map .sending, [], []⟩ := Traffic.steps_start [] lists (by simpa using hworkers) []
  refine ⟨_, hstart.trans (Traffic.steps_of_interleaves hcapacity h []), ⟨?_, rfl⟩, rfl⟩
  intro job hjob
  obtain ⟨_, -, rfl⟩ := List.mem_map.mp hjob
  rfl

end IntentGrammar
