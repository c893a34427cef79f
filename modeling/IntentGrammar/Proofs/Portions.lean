import IntentGrammar.Proofs.Datasets

/-!
# How utterances are portioned

An emitter is given utterances one by one, and then it is finished.  To a sink that does not want to
wait for the end a batch goes out when a part has as many utterances waiting as a batch holds, so
what is waiting is always less than that (`Emitter.Short`) and each batch that goes out on the way
is full: one step portions in this way (`Emitter.portions_push`), and so does any number of them
(`Emitter.portions_pushAll`).  At the end at most one batch for each part is left, which need not be
full (`Emitter.sublist_parts_finish`).  To a sink that wants everything at once nothing goes out on
the way.

All this, with what is known of any stretch of the work (`Emitter.Hands`), is what a sink gets that
does not refuse anything, and a data set does not show how the utterances were portioned
(`Emitter.deliveries_portioned`).
-/

namespace IntentGrammar

variable {τ : Type}

namespace Emitter

/-- The number of utterances in a full batch. -/
def portion (e : Emitter) : Nat := max e.batchSize 1

/-- Less is waiting for each part than a batch holds. -/
def Short (e : Emitter) : Prop := ∀ part, (e.waiting part).size < e.portion

variable {e : Emitter} {part : Part} {u : Utterance} {b : Batch}

/-! ### What stays as it is -/

@[simp] theorem portion_setWaiting (e : Emitter) (part : Part) (us : Array Utterance) :
    (e.setWaiting part us).portion = e.portion := by
  cases part <;> rfl

@[simp] theorem incremental_setWaiting (e : Emitter) (part : Part) (us : Array Utterance) :
    (e.setWaiting part us).incremental = e.incremental := by
  cases part <;> rfl

@[simp] theorem portion_flush (e : Emitter) (part : Part) :
    (e.flush part).2.portion = e.portion := by
  rw [flush]
  split
  · rfl
  · exact e.portion_setWaiting part #[]

@[simp] theorem incremental_flush (e : Emitter) (part : Part) :
    (e.flush part).2.incremental = e.incremental := by
  rw [flush]
  split
  · rfl
  · exact e.incremental_setWaiting part #[]

/-- What is handed over of a part is all that is waiting for it. -/
theorem of_mem_flush (h : b ∈ (e.flush part).1) :
    b.part = part ∧ b.utterances = (e.waiting part).toList := by
  rw [flush] at h
  split at h
  · cases h
  · cases h
    exact ⟨rfl, rfl⟩

/-! ### On the way -/

/-- An utterance that is taken up waits for its part. -/
theorem size_waiting_push (e : Emitter) (part other : Part) (u : Utterance) :
    ((e.setWaiting part ((e.waiting part).push u)).waiting other).size
      = if part = other then (e.waiting part).size + 1 else (e.waiting other).size := by
  rw [waiting_setWaiting, apply_ite Array.size, Array.size_push]

/-- To take up an utterance is to let it wait, and then to hand over its part if it is full and that
is wanted. -/
theorem push_cases (e : Emitter) (part : Part) (u : Utterance) :
    let taken := e.setWaiting part ((e.waiting part).push u)
    e.incremental = true ∧ e.portion ≤ (e.waiting part).size + 1 ∧
        e.push part u = taken.flush part ∨
      (e.incremental = true → (e.waiting part).size + 1 < e.portion) ∧
        e.push part u = (none, taken) := by
  intro taken
  have hwaiting : (taken.waiting part).size = (e.waiting part).size + 1 := by
    rw [size_waiting_push, if_pos rfl]
  have hincremental : taken.incremental = e.incremental := e.incremental_setWaiting part _
  have hportion : max taken.batchSize 1 = e.portion := e.portion_setWaiting part _
  rw [push]
  show _ ∧ _ ∧ (if taken.incremental && max taken.batchSize 1 ≤ (taken.waiting part).size then _
    else _) = _ ∨ _
  rw [hwaiting, hincremental, hportion]
  split
  · next hfull =>
    obtain ⟨hwanted, hsize⟩ := Bool.and_eq_true_iff.mp hfull
    exact .inl ⟨hwanted, by simpa using hsize, rfl⟩
  · next hroom =>
    refine .inr ⟨fun hwanted => ?_, rfl⟩
    rw [hwanted] at hroom
    simpa using hroom

/-- An emitter portions what it takes up as `bs` and becomes `e'`. -/
structure Portions (e : Emitter) (bs : List Batch) (e' : Emitter) : Prop where
  incremental : e'.incremental = e.incremental
  portion : e'.portion = e.portion
  /-- What goes out on the way is full. -/
  full : e.incremental = true → e.Short → (∀ b ∈ bs, b.utterances.length = e.portion) ∧ e'.Short
  /-- Nothing goes out on the way if everything is wanted at once. -/
  none : e.incremental = false → bs = []

variable {e' e'' : Emitter} {bs cs : List Batch}

theorem Portions.refl (e : Emitter) : e.Portions [] e where
  incremental := rfl
  portion := rfl
  full _ hshort := ⟨List.forall_mem_nil _, hshort⟩
  none _ := rfl

theorem Portions.trans (h : e.Portions bs e') (h' : e'.Portions cs e'') :
    e.Portions (bs ++ cs) e'' where
  incremental := h'.incremental.trans h.incremental
  portion := h'.portion.trans h.portion
  full hwanted hshort := by
    obtain ⟨hfull, hshort⟩ := h.full hwanted hshort
    obtain ⟨hfull', hshort⟩ := h'.full (h.incremental.trans hwanted) hshort
    rw [h.portion] at hfull'
    exact ⟨List.forall_mem_append.mpr ⟨hfull, hfull'⟩, hshort⟩
  none hwaits := by
    rw [h.none hwaits, h'.none (h.incremental.trans hwaits)]
    rfl

/-- **To take up an utterance** keeps short what is waiting, and what goes out is full. -/
theorem portions_push (e : Emitter) (part : Part) (u : Utterance) :
    e.Portions (e.push part u).1.toList (e.push part u).2 := by
  rcases e.push_cases part u with ⟨hwanted, hsize, hpush⟩ | ⟨hroom, hpush⟩
  · rw [hpush]
    refine {
      incremental := by simp
      portion := by simp
      full := fun _ hshort => ⟨fun b hb => ?_, fun other => ?_⟩
      none := fun hwaits => ?_ }
    · -- with one more the part has just reached what a batch holds
      obtain ⟨-, hb⟩ := of_mem_flush (Option.mem_toList.mp hb)
      have hone := hshort part
      rw [hb, Array.length_toList, size_waiting_push, if_pos rfl]
      omega
    · have hsame := hshort other
      rw [waiting_flush, portion_flush, portion_setWaiting]
      split
      · exact Nat.zero_lt_of_lt hsame
      · next hother => rwa [size_waiting_push, if_neg hother]
    · rw [hwanted] at hwaits
      cases hwaits
  · rw [hpush]
    refine {
      incremental := by simp
      portion := by simp
      full := fun hwanted hshort => ⟨List.forall_mem_nil _, fun other => ?_⟩
      none := fun _ => rfl }
    rw [size_waiting_push, portion_setWaiting]
    split
    · exact hroom hwanted
    · exact hshort other

/-- So it is with any number of utterances. -/
theorem portions_pushAll (e : Emitter) (xs : List Labelled) :
    e.Portions (e.pushAll xs).1 (e.pushAll xs).2 := by
  induction xs generalizing e with
  | nil => exact .refl e
  | cons x xs ih => exact (e.portions_push x.1 x.2).trans (ih _)

/-! ### At the end -/

theorem finish_eq (e : Emitter) : e.finish =
    (e.flush .training).1.toList ++ ((e.flush .training).2.flush .testing).1.toList := rfl

theorem sublist_parts_flush (e : Emitter) (part : Part) :
    ((e.flush part).1.toList.map (·.part)).Sublist [part] := by
  rw [flush]
  split
  · exact List.nil_sublist _
  · exact .refl _

/-- At the end there is at most one batch for each part, that for training first. -/
theorem sublist_parts_finish (e : Emitter) :
    (e.finish.map (·.part)).Sublist [.training, .testing] := by
  have hfirst := e.sublist_parts_flush .training
  have hsecond := (e.flush .training).2.sublist_parts_flush .testing
  rw [finish_eq, List.map_append]
  exact hfirst.append hsecond

/-- At the end a batch holds all that was waiting for its part. -/
theorem utterances_of_mem_finish (h : b ∈ e.finish) :
    b.utterances = (e.waiting b.part).toList := by
  rw [finish_eq] at h
  rcases List.mem_append.mp h with h | h
  · obtain ⟨hpart, hus⟩ := of_mem_flush (Option.mem_toList.mp h)
    rw [hus, hpart]
  · obtain ⟨hpart, hus⟩ := of_mem_flush (Option.mem_toList.mp h)
    rw [hus, hpart, waiting_flush, if_neg nofun]

/-- Of the batches for a part only the last can be one of the end. -/
theorem mem_of_mem_dropLast (e : Emitter)
    (h : b ∈ ((bs ++ e.finish).filter (·.part = part)).dropLast) : b ∈ bs := by
  have hone : (e.finish.filter (·.part = part)).length ≤ 1 := by
    have hparts := (e.sublist_parts_finish.filter (· = part)).length_le
    rw [List.filter_map, List.length_map] at hparts
    refine Nat.le_trans hparts ?_
    cases part <;> rfl
  rw [List.filter_append] at h
  rcases hlast : e.finish.filter (·.part = part) with _ | ⟨last, rest⟩
  · rw [hlast, List.append_nil] at h
    exact List.mem_of_mem_filter (List.dropLast_subset _ h)
  · rw [hlast, List.length_cons] at hone
    obtain rfl : rest = [] := List.eq_nil_of_length_eq_zero (by omega)
    rw [hlast, List.dropLast_concat] at h
    exact List.mem_of_mem_filter h

/-! ### What a sink gets -/

/-- Take up utterances and deliver what goes out on the way, as `Generator.pump` does with those
that it finds. -/
def takeUp (sink : Sink τ) (e : Emitter) : List Labelled → Delivering τ Emitter
  | [] => return e
  | (part, u) :: xs => do
    let (batch, e) := e.push part u
    batch.forM sink.deliver
    e.takeUp sink xs

/-- A willing sink gets all that goes out. -/
theorem run_takeUp {sink : Sink τ} (hsink : sink.Willing) (e : Emitter) (xs : List Labelled)
    (r : Receiving τ) :
    ∃ c, (e.takeUp sink xs).run.run r
        = (.ok (e.pushAll xs).2, ⟨sink.after r.sink (e.pushAll xs).1, c⟩) ∧
      (sink.Steady → c = r.cancellation) := by
  induction xs generalizing e r with
  | nil => exact ⟨_, rfl, fun _ => rfl⟩
  | cons x xs ih =>
    obtain ⟨c, hbatch, hc⟩ := hsink.run_forM (e.push x.1 x.2).1.toList r
    obtain ⟨c', hrest, hc'⟩ :=
      ih (e.push x.1 x.2).2 ⟨sink.after r.sink (e.push x.1 x.2).1.toList, c⟩
    refine ⟨c', ?_, fun hsteady => (hc' hsteady).trans (hc hsteady)⟩
    show (((e.push x.1 x.2).1.forM sink.deliver >>= fun _ =>
      (e.push x.1 x.2).2.takeUp sink xs).run.run r) = _
    rw [Sink.forM_toList, run_bind_of_ok hbatch, hrest, ← Sink.after_append]
    rfl

/-- A new emitter has nothing waiting. -/
theorem short_new (intent : String) (batchSize : Nat) (incremental : Bool) :
    Short { intent, batchSize, incremental } := by
  intro part
  cases part <;> exact Nat.lt_of_lt_of_le Nat.one_pos (Nat.le_max_right _ _)

/-- **How utterances are portioned**, whatever their parts and the size of a batch.  A sink that
does not refuse gets `early` while the utterances are taken up and `late` at the end.  These batches
are numbered in order and none is empty, and for each part they hold its utterances in order.  If
the sink does not have to wait, the batches of a part are full, but for the last.  Otherwise nothing
comes before the end, and then at most one batch for each part, that for training first.  A data set
comes out the same in all cases. -/
theorem deliveries_portioned (intent : String) (batchSize : Nat) (incremental : Bool)
    (xs : List Labelled) :
    let e : Emitter := { intent, batchSize, incremental }
    ∃ (early late : List Batch) (e' : Emitter),
      (∀ {τ : Type} (sink : Sink τ), sink.Willing → ∀ (s : τ) (c : Cancellation), ∃ c₁ c₂,
        (e.takeUp sink.recording xs).run.run ⟨(s, []), c⟩
          = (.ok e', ⟨(sink.after s early, early), c₁⟩) ∧
        (e'.finish.forM sink.recording.deliver).run.run ⟨(sink.after s early, early), c₁⟩
          = (.ok (), ⟨(sink.after s (early ++ late), early ++ late), c₂⟩)) ∧
      (early ++ late).map (·.index) = List.range (early ++ late).length ∧
      (∀ b ∈ early ++ late, b.intent = intent ∧ b.utterances ≠ []) ∧
      (∀ part, ofPart part (early ++ late) = utterancesOf part xs) ∧
      (incremental = true → ∀ part,
        (∀ b ∈ ((early ++ late).filter (·.part = part)).dropLast,
          b.utterances.length = max batchSize 1) ∧
        ∀ b ∈ (early ++ late).filter (·.part = part),
          1 ≤ b.utterances.length ∧ b.utterances.length ≤ max batchSize 1) ∧
      (incremental = false → early = [] ∧ (late.map (·.part)).Sublist [.training, .testing]) ∧
      ∀ (d : Dataset) (c : Cancellation),
        (e.takeUp Dataset.sink xs >>= fun e => e.finish.forM Dataset.sink.deliver).run.run ⟨d, c⟩
          = (.ok (), ⟨d.add intent (utterancesOf .training xs) (utterancesOf .testing xs), c⟩) := by
  intro e
  obtain ⟨last, hhands, hempty⟩ := e.exists_hands_handed xs
  have hportions := e.portions_pushAll xs
  have hparts : ∀ part, ofPart part (e.handed xs) = utterancesOf part xs := by
    intro part
    have hbalance := hhands.balance part
    rw [hempty, List.append_nil] at hbalance
    rw [hbalance]
    cases part <;> rfl
  refine ⟨(e.pushAll xs).1, (e.pushAll xs).2.finish, (e.pushAll xs).2, ?_, ?_, ?_, hparts, ?_, ?_,
    ?_⟩
  · intro τ sink hsink s c
    obtain ⟨c₁, hearly, -⟩ := run_takeUp hsink.recording e xs ⟨(s, []), c⟩
    obtain ⟨c₂, hlate, -⟩ := hsink.recording.run_forM (e.pushAll xs).2.finish
      ⟨(sink.after s (e.pushAll xs).1, (e.pushAll xs).1), c₁⟩
    rw [Sink.after_recording] at hearly hlate
    rw [← Sink.after_append] at hlate
    exact ⟨c₁, c₂, hearly, hlate⟩
  · rw [List.range_eq_range']
    exact hhands.indices
  · exact fun b hb => ⟨hhands.intents b hb, hhands.nonempty b hb⟩
  · intro hwanted part
    obtain ⟨hfull, hshort⟩ := hportions.full hwanted (short_new intent batchSize incremental)
    refine ⟨fun b hb => hfull b (mem_of_mem_dropLast _ hb), fun b hb => ?_⟩
    have hb := List.mem_of_mem_filter hb
    refine ⟨List.length_pos_of_ne_nil (hhands.nonempty b hb), ?_⟩
    rcases List.mem_append.mp hb with hb | hb
    · exact (hfull b hb).le
    · -- what is left at the end was waiting, and so there is not enough of it for a full batch
      rw [utterances_of_mem_finish hb, Array.length_toList]
      have hless := hshort b.part
      rw [hportions.portion] at hless
      exact hless.le
  · exact fun hwaits => ⟨hportions.none hwaits, sublist_parts_finish _⟩
  · intro d c
    have hsteady : Dataset.sink.Steady := fun _ _ => rfl
    obtain ⟨c₁, hearly, hc₁⟩ := run_takeUp hsteady.willing e xs ⟨d, c⟩
    obtain ⟨c₂, hlate, hc₂⟩ := hsteady.willing.run_forM (e.pushAll xs).2.finish
      ⟨Dataset.sink.after d (e.pushAll xs).1, c₁⟩
    obtain rfl : c₂ = c := (hc₂ hsteady).trans (hc₁ hsteady)
    rw [run_bind_of_ok hearly, hlate, ← Sink.after_append]
    have hset := Dataset.after_sink d hhands.intents hhands.nonempty
    rw [hparts, hparts] at hset
    exact congrArg (fun d => (Except.ok (), (⟨d, c₂⟩ : Receiving Dataset))) hset

/-- Of two utterances for training and one for testing between them the two go out together, as soon
as both are there, and the other is left for the end. -/
theorem deliveries_in_twos :
    let xs : List Labelled :=
      [(.training, [.word "hi"]), (.testing, [.word "hello"]), (.training, [.word "hey"])]
    let e : Emitter := { intent := "greet", batchSize := 2, incremental := true }
    let early : List Batch := [⟨"greet", 0, .training, [[.word "hi"], [.word "hey"]]⟩]
    let late : List Batch := [⟨"greet", 1, .testing, [[.word "hello"]]⟩]
    ∃ e', (e.takeUp Dataset.sink.recording xs).run.run ⟨({}, []), .never⟩
        = (.ok e', ⟨(Dataset.sink.after {} early, early), .never⟩) ∧
      (e'.finish.forM Dataset.sink.recording.deliver).run.run
          ⟨(Dataset.sink.after {} early, early), .never⟩
        = (.ok (), ⟨(Dataset.sink.after {} (early ++ late), early ++ late), .never⟩) ∧
      ∀ part, ofPart part (early ++ late) = utterancesOf part xs := by
  intro xs e early late
  have hsteady : Dataset.sink.Steady := fun _ _ => rfl
  obtain ⟨early', late', e', hruns, -, -, hparts, -⟩ := deliveries_portioned "greet" 2 true xs
  obtain ⟨c₁, c₂, htaken, hfinished⟩ := hruns Dataset.sink hsteady.willing {} .never
  obtain rfl : early = early' := congrArg (fun r => r.2.sink.2) htaken
  obtain rfl : Cancellation.never = c₁ := congrArg (fun r => r.2.cancellation) htaken
  obtain rfl : (e.pushAll xs).2 = e' := Except.ok.inj (congrArg Prod.fst htaken)
  have hall : early ++ late = early ++ late' := congrArg (fun r => r.2.sink.2) hfinished
  obtain rfl : late = late' := List.append_cancel_left hall
  obtain rfl : Cancellation.never = c₂ := congrArg (fun r => r.2.cancellation) hfinished
  exact ⟨_, htaken, hfinished, hparts⟩

end Emitter

end IntentGrammar
