import IntentGrammar.Proofs.Batches
import IntentGrammar.Run

/-!
# Sinks that take what they are given

A sink may refuse a batch, and it may cancel the run.  One that never refuses is *willing*: a
computation that delivers to it comes to its end, and the sink is then as its batches have made it
(`Sink.Willing.run_forM`).  A *steady* sink does not cancel either.

What is delivered depends on a sink only by its replies, so another sink can stand in for it that
replies alike (`Sink.Substitute`), and what has come about with the one comes about with the other
(`Follows`).  In this way the run to a sink that besides keeps a record of all batches
(`Sink.recording`) is the run to the sink itself, and a run that a sink has not refused is one to a
willing sink (`Sink.obliging`).
-/

namespace IntentGrammar

variable {σ τ α β : Type}

/-! ### Computations that may fail -/

section Running

variable {ε σ : Type} {x : ExceptT ε (StateM σ) α} {a : α} {s s' : σ}

theorem run_get_bind (f : σ → ExceptT ε (StateM σ) β) (s : σ) :
    ((get : ExceptT ε (StateM σ) σ) >>= f).run.run s = (f s).run.run s := rfl

theorem run_set_bind (s' : σ) (f : PUnit → ExceptT ε (StateM σ) β) (s : σ) :
    ((set s' : ExceptT ε (StateM σ) PUnit) >>= f).run.run s = (f ⟨⟩).run.run s' := rfl

theorem eq_of_run_pure {b : α} (h : (pure a : ExceptT ε (StateM σ) α).run.run s = (.ok b, s')) :
    a = b :=
  Except.ok.inj (congrArg Prod.fst h)

/-- What comes after a computation goes on from what it comes to. -/
theorem run_bind_of_ok (h : x.run.run s = (.ok a, s')) (f : α → ExceptT ε (StateM σ) β) :
    (x >>= f).run.run s = (f a).run.run s' := by
  have hx : (x >>= f).run.run s = (ExceptT.bindCont f (x.run.run s).1).run (x.run.run s).2 := rfl
  rw [hx, h]
  rfl

/-- What comes after a computation that fails does not come about. -/
theorem run_bind_of_error {e : ε} (h : x.run.run s = (.error e, s'))
    (f : α → ExceptT ε (StateM σ) β) : (x >>= f).run.run s = (.error e, s') := by
  have hx : (x >>= f).run.run s = (ExceptT.bindCont f (x.run.run s).1).run (x.run.run s).2 := rfl
  rw [hx, h]
  rfl

/-- A computation that comes to something has come to something before it goes on. -/
theorem exists_of_run_bind_eq_ok {f : α → ExceptT ε (StateM σ) β} {b : β}
    (h : (x >>= f).run.run s = (.ok b, s')) :
    ∃ a s₁, x.run.run s = (.ok a, s₁) ∧ (f a).run.run s₁ = (.ok b, s') := by
  rcases hx : x.run.run s with ⟨e | a, s₁⟩
  · rw [run_bind_of_error hx] at h
    cases congrArg Prod.fst h
  · rw [run_bind_of_ok hx] at h
    exact ⟨a, s₁, rfl, h⟩

theorem run_map_of_ok (h : x.run.run s = (.ok a, s')) (f : α → β) :
    (f <$> x).run.run s = (.ok (f a), s') := by
  rw [map_eq_pure_bind, run_bind_of_ok h]
  rfl

end Running

/-! ### Sinks -/

namespace Sink

/-- The sink accepts every batch, though it may cancel the run. -/
def Willing (sink : Sink τ) : Prop := ∀ b s reason, (sink.accept b s).1 ≠ .refused reason

/-- The sink accepts every batch and leaves the run alone. -/
def Steady (sink : Sink τ) : Prop := ∀ b s, (sink.accept b s).1 = .accepted

/-- What becomes of the state of a sink by batches. -/
def after (sink : Sink τ) (s : τ) (bs : List Batch) : τ :=
  bs.foldl (fun s b => (sink.accept b s).2) s

/-- The sink that besides keeps all batches that are handed to it. -/
def recording (sink : Sink τ) : Sink (τ × List Batch) where
  incremental := sink.incremental
  accept b s :=
    let (reply, t) := sink.accept b s.1
    (reply, t, s.2 ++ [b])
  close s :=
    let (fault, t) := sink.close s.1
    (fault, t, s.2)

variable {sink : Sink τ}

theorem Steady.willing (h : sink.Steady) : sink.Willing := by
  intro b s reason
  rw [h b s]
  nofun

theorem Willing.recording (h : sink.Willing) : sink.recording.Willing :=
  fun b s => h b s.1

theorem Steady.recording (h : sink.Steady) : sink.recording.Steady :=
  fun b s => h b s.1

theorem after_append (s : τ) (bs cs : List Batch) :
    sink.after s (bs ++ cs) = sink.after (sink.after s bs) cs := List.foldl_append

theorem after_recording (s : τ) (log bs : List Batch) :
    sink.recording.after (s, log) bs = (sink.after s bs, log ++ bs) := by
  induction bs generalizing s log with
  | nil => rw [List.append_nil]; rfl
  | cons b bs ih =>
    show sink.recording.after ((sink.accept b s).2, log ++ [b]) bs = _
    rw [ih, List.append_assoc]
    rfl

theorem run_deliver {b : Batch} {r : Receiving τ}
    (h : ∀ reason, (sink.accept b r.sink).1 ≠ .refused reason) :
    ∃ c, (sink.deliver b).run.run r = (.ok (), ⟨(sink.accept b r.sink).2, c⟩) ∧
      ((sink.accept b r.sink).1 = .accepted → c = r.cancellation) := by
  rw [deliver, run_get_bind]
  rcases hreply : sink.accept b r.sink with ⟨reply, s⟩
  rw [hreply] at h
  rcases reply with _ | _ | reason
  · exact ⟨_, rfl, fun _ => rfl⟩
  · exact ⟨.now, rfl, nofun⟩
  · exact absurd rfl (h reason)

/-- A willing sink gets all batches. -/
theorem Willing.run_forM (h : sink.Willing) (bs : List Batch) (r : Receiving τ) :
    ∃ c, (bs.forM sink.deliver).run.run r = (.ok (), ⟨sink.after r.sink bs, c⟩) ∧
      (sink.Steady → c = r.cancellation) := by
  induction bs generalizing r with
  | nil => exact ⟨_, rfl, fun _ => rfl⟩
  | cons b bs ih =>
    -- a cancellation does not keep the batches back that are on their way
    obtain ⟨c, hdeliver, hc⟩ := run_deliver (h b r.sink)
    obtain ⟨c', hrest, hc'⟩ := ih ⟨(sink.accept b r.sink).2, c⟩
    refine ⟨c', ?_, fun hsteady => (hc' hsteady).trans (hc (hsteady b r.sink))⟩
    show (sink.deliver b >>= fun _ => bs.forM sink.deliver).run.run r = _
    rw [run_bind_of_ok hdeliver, hrest]
    rfl

theorem forM_toList (batch : Option Batch) :
    batch.forM sink.deliver = batch.toList.forM sink.deliver := by
  cases batch with
  | none => rfl
  | some b => exact (bind_pure_unit).symm

end Sink

/-! ### To stand in for a sink -/

/-- The same cancellation with another state of a sink. -/
def Receiving.map (φ : σ → τ) (r : Receiving σ) : Receiving τ := ⟨φ r.sink, r.cancellation⟩

/-- The second sink can stand in for the first: what the first accepts the second accepts too, and
their states keep in step. -/
structure Sink.Substitute (sink : Sink σ) (φ : σ → τ) (other : Sink τ) : Prop where
  incremental : other.incremental = sink.incremental
  accept (b : Batch) (s : σ) : (∀ reason, (sink.accept b s).1 ≠ .refused reason) →
    other.accept b (φ s) = ((sink.accept b s).1, φ (sink.accept b s).2)

/-- A sink can stand in for the one that besides keeps a record. -/
theorem Sink.substitute_recording (sink : Sink τ) : sink.recording.Substitute Prod.fst sink where
  incremental := rfl
  accept _ _ _ := rfl

/-- The reply of a sink that would not refuse. -/
def Reply.obliging : Reply → Reply
  | refused _ => accepted
  | reply => reply

/-- The sink that accepts what the given one refuses. -/
def Sink.obliging (sink : Sink τ) : Sink τ where
  incremental := sink.incremental
  accept b s := ((sink.accept b s).1.obliging, (sink.accept b s).2)
  close := sink.close

theorem Sink.willing_obliging (sink : Sink τ) : sink.obliging.Willing := by
  intro b s reason
  show (sink.accept b s).1.obliging ≠ .refused reason
  cases (sink.accept b s).1 <;> nofun

/-- A willing sink can stand in for any. -/
theorem Sink.substitute_obliging (sink : Sink τ) : sink.Substitute id sink.obliging where
  incremental := rfl
  accept b s h := by
    have hreply : (sink.accept b s).1.obliging = (sink.accept b s).1 := by
      cases hsays : (sink.accept b s).1 with
      | accepted | acceptedLast => rfl
      | refused reason => exact absurd hsays (h reason)
    exact congrArg (·, (sink.accept b s).2) hreply

/-- Whatever the first computation comes to, the second comes to it with the other sink. -/
def Follows (φ : σ → τ) (x : Delivering σ α) (y : Delivering τ α) : Prop :=
  ∀ r a r', x.run.run r = (.ok a, r') → y.run.run (r.map φ) = (.ok a, r'.map φ)

variable {φ : σ → τ}

theorem follows_pure (a : α) : Follows φ (pure a) (pure a) := by
  intro r b r' h
  obtain rfl : a = b := eq_of_run_pure h
  obtain rfl : r = r' := congrArg Prod.snd h
  rfl

theorem Follows.bind {x : Delivering σ α} {y : Delivering τ α} {f : α → Delivering σ β}
    {g : α → Delivering τ β} (hx : Follows φ x y) (hf : ∀ a, Follows φ (f a) (g a)) :
    Follows φ (x >>= f) (y >>= g) := by
  intro r b r' h
  obtain ⟨a, r₁, hxa, hfa⟩ := exists_of_run_bind_eq_ok h
  rw [run_bind_of_ok (hx r a r₁ hxa)]
  exact hf a r₁ b r' hfa

variable {sink : Sink σ} {other : Sink τ}

theorem Sink.Substitute.deliver (h : sink.Substitute φ other) (b : Batch) :
    Follows φ (sink.deliver b) (other.deliver b) := by
  intro r a r' hrun
  rw [Sink.deliver, run_get_bind] at hrun ⊢
  have haccept := h.accept b r.sink
  rcases hreply : sink.accept b r.sink with ⟨_ | _ | reason, s⟩
  · rw [hreply] at hrun haccept
    have hsame : other.accept b (r.map φ).sink = (.accepted, φ s) := haccept nofun
    rw [hsame]
    obtain rfl : _ = r' := congrArg Prod.snd hrun
    rfl
  · rw [hreply] at hrun haccept
    have hsame : other.accept b (r.map φ).sink = (.acceptedLast, φ s) := haccept nofun
    rw [hsame]
    obtain rfl : _ = r' := congrArg Prod.snd hrun
    rfl
  · -- the first sink has refused the batch, and so the computation has come to nothing
    rw [hreply] at hrun
    cases congrArg Prod.fst hrun

theorem Sink.Substitute.forM (h : sink.Substitute φ other) (bs : List Batch) :
    Follows φ (bs.forM sink.deliver) (bs.forM other.deliver) := by
  induction bs with
  | nil => exact follows_pure _
  | cons b bs ih => exact (h.deliver b).bind fun _ => ih

end IntentGrammar
