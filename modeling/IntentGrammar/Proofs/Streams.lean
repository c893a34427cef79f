import IntentGrammar.Proofs.Sampling

/-!
# What a stream yields

A stream passes on the *novelties* of its source, the utterances with a text that none before them
has, until the target is reached.  What the source offers if it is looked at as often as a plan
allows is the *material* of the plan, and this is all that the utterances of a stream depend on:
they are the first novelties of the material, as many as the target says.

`Stream.Read` says where a stream stands that has looked at a part of the material.  One search for
a new utterance passes over old ones and ends behind a new one or at the end of the material
(`Stream.Read.seek`); from this follows what a whole run yields, and that it looks no further than
to the novelty that reaches the target (`Stream.Read.take`).
-/

namespace IntentGrammar

/-! ### Novelties -/

/-- The utterances with a text that none before them has. -/
def novelties (us : List Utterance) : List Utterance :=
  us.eraseDupsBy fun u v => Utterance.text u == Utterance.text v

theorem novelties_cons (u : Utterance) (us : List Utterance) :
    novelties (u :: us)
      = u :: novelties (us.filter fun v => Utterance.text v ≠ Utterance.text u) := by
  rw [novelties, List.eraseDupsBy_cons, novelties]
  simp only [beq_eq_false_iff_ne]

/-- What comes later adds the novelties among the utterances with other texts. -/
theorem novelties_append (us vs : List Utterance) :
    novelties (us ++ vs)
      = novelties us
        ++ novelties (vs.filter fun v => Utterance.text v ∉ us.map Utterance.text) := by
  match us with
  | [] => simp [novelties]
  | u :: us =>
    have hlength := List.length_filter_le (fun v => Utterance.text v ≠ Utterance.text u) us
    -- a text is old if it is that of `u` or of one of those that are left behind `u`
    have hnew : ∀ v, Utterance.text v ∉ (u :: us).map Utterance.text ↔
        Utterance.text v ∉
            (us.filter fun w => Utterance.text w ≠ Utterance.text u).map Utterance.text ∧
          Utterance.text v ≠ Utterance.text u := by
      intro v
      grind
    rw [List.cons_append, novelties_cons, novelties_cons, List.filter_append, novelties_append,
      List.filter_filter, List.cons_append]
    simp only [hnew, Bool.decide_and]
termination_by us.length
decreasing_by
  rw [List.length_cons]
  omega

theorem novelties_isPrefix {us vs : List Utterance} (h : us <+: vs) :
    novelties us <+: novelties vs := by
  obtain ⟨ws, rfl⟩ := h
  rw [novelties_append]
  exact List.prefix_append _ _

/-- An utterance with an old text adds nothing. -/
theorem novelties_concat_of_mem {us : List Utterance} {u : Utterance}
    (h : Utterance.text u ∈ us.map Utterance.text) : novelties (us ++ [u]) = novelties us := by
  have hnone : [u].filter (fun v => Utterance.text v ∉ us.map Utterance.text) = [] := by
    simpa using h
  rw [novelties_append, hnone]
  exact List.append_nil _

/-- An utterance with a new text is added. -/
theorem novelties_concat_of_notMem {us : List Utterance} {u : Utterance}
    (h : Utterance.text u ∉ us.map Utterance.text) :
    novelties (us ++ [u]) = novelties us ++ [u] := by
  have hself : [u].filter (fun v => Utterance.text v ∉ us.map Utterance.text) = [u] := by
    simpa using h
  rw [novelties_append, hself]
  rfl

theorem novelties_sublist (us : List Utterance) : (novelties us).Sublist us := by
  induction us using List.reverseRecOn with
  | nil => exact List.Sublist.refl _
  | append_singleton us u ih =>
    by_cases hu : Utterance.text u ∈ us.map Utterance.text
    · rw [novelties_concat_of_mem hu]
      exact ih.trans (List.sublist_append_left us [u])
    · rw [novelties_concat_of_notMem hu]
      exact ih.append (List.Sublist.refl _)

/-- No text is there twice. -/
theorem nodup_text_novelties (us : List Utterance) :
    ((novelties us).map Utterance.text).Nodup := by
  induction us using List.reverseRecOn with
  | nil => exact List.nodup_nil
  | append_singleton us u ih =>
    by_cases hu : Utterance.text u ∈ us.map Utterance.text
    · rwa [novelties_concat_of_mem hu]
    · rw [novelties_concat_of_notMem hu, List.map_append, List.map_singleton]
      refine List.nodup_append.mpr ⟨ih, List.nodup_singleton _, fun t ht t' ht' heq => hu ?_⟩
      rw [List.mem_singleton] at ht'
      rw [← ht', ← heq]
      exact ((novelties_sublist us).map _).subset ht

/-! ### Where a stream stands -/

section Runs

variable (pull? : Position → Option (Utterance × Position)) (origin : Position)
  (material : List Utterance)

/-- The position behind so many looks at a source. -/
def positionAfter? : Nat → Option Position
  | 0 => some origin
  | k + 1 => (positionAfter? k).bind fun position => (pull? position).map (·.2)

/-- The stream has looked at `read`, the first part of the material behind `origin`, and has
counted and remembered what there was. -/
structure Stream.Read (read : List Utterance) (s : Stream) : Prop where
  position : positionAfter? pull? origin read.length = some s.position
  rest : material = read ++ pulled pull? s.left s.position
  seen : ∀ text, s.seen.contains text = true ↔ text ∈ read.map Utterance.text
  produced : s.produced = (novelties read).length

/-- The stream that had looked at `read` has been asked for `n` utterances, has yielded `xs` and has
looked at `read'`: it has yielded the novelties in between, as many as it was asked for unless the
material is used up, and no part of what it looked at would have done. -/
structure Stream.Advances (n : Nat) (read : List Utterance) (s : Stream) (xs : List Labelled)
    (read' : List Utterance) (s' : Stream) : Prop where
  after : s'.Read pull? origin material read'
  yielded : novelties read' = novelties read ++ xs.map (·.2)
  labels : xs.map (·.1) = (List.range' s.produced xs.length).map s.split.assign
  length_le : xs.length ≤ n
  exhausted : xs.length < n → read' = material
  frugal : ∀ j, read.length ≤ j → j < read'.length →
    (novelties (material.take j)).length < s.produced + n
  target : s'.target = s.target
  split : s'.split = s.split
  cancelled : s'.cancelled = s.cancelled

variable {pull? origin material} {s s' : Stream} {read read' : List Utterance} {left : Nat}
  {position : Position}

theorem Stream.Read.take_material (h : s.Read pull? origin material read) :
    material.take read.length = read := by
  rw [h.rest, List.take_left']
  rfl

theorem positionAfter?_concat {u : Utterance} {position' : Position}
    (h : positionAfter? pull? origin read.length = some position)
    (hpull : pull? position = some (u, position')) :
    positionAfter? pull? origin (read ++ [u]).length = some position' := by
  rw [List.length_append, List.length_singleton, positionAfter?, h, Option.bind_some, hpull]
  rfl

theorem append_pulled_succ {u : Utterance} {position' : Position}
    (hpull : pull? position = some (u, position')) :
    read ++ pulled pull? (left + 1) position = read ++ [u] ++ pulled pull? left position' := by
  rw [pulled, hpull, List.append_assoc]
  rfl

/-- To look at one more utterance and to pass over it. -/
theorem Stream.Read.pass {u : Utterance} {position' : Position}
    (h : ({ s with position, left := left + 1 } : Stream).Read pull? origin material read)
    (hpull : pull? position = some (u, position'))
    (hold : Utterance.text u ∈ read.map Utterance.text) :
    ({ s with position := position', left } : Stream).Read pull? origin material (read ++ [u]) where
  position := positionAfter?_concat h.position hpull
  rest := h.rest.trans (append_pulled_succ hpull)
  seen text := by
    rw [List.map_append, List.mem_append, List.map_singleton, List.mem_singleton]
    constructor
    · intro hseen
      exact .inl ((h.seen text).mp hseen)
    · rintro (hread | rfl)
      · exact (h.seen text).mpr hread
      · exact (h.seen _).mpr hold
  produced := by
    rw [novelties_concat_of_mem hold]
    exact h.produced

/-- To look at one more utterance and to yield it. -/
theorem Stream.Read.yield {u : Utterance} {position' : Position}
    (h : ({ s with position, left := left + 1 } : Stream).Read pull? origin material read)
    (hpull : pull? position = some (u, position'))
    (hnew : Utterance.text u ∉ read.map Utterance.text) :
    ({ s with
        position := position', left
        seen := s.seen.insert (Utterance.text u)
        produced := s.produced + 1 } : Stream).Read pull? origin material (read ++ [u]) where
  position := positionAfter?_concat h.position hpull
  rest := h.rest.trans (append_pulled_succ hpull)
  seen text := by
    have hseen : s.seen.contains text = true ↔ text ∈ read.map Utterance.text := h.seen text
    rw [List.map_append, List.mem_append, List.map_singleton, List.mem_singleton,
      Std.HashSet.contains_insert, Bool.or_eq_true, beq_iff_eq, hseen, or_comm, eq_comm]
  produced := by
    have hproduced : s.produced = (novelties read).length := h.produced
    rw [novelties_concat_of_notMem hnew, List.length_append, List.length_singleton, hproduced]

/-! ### One search -/

/-- To pass over an old utterance first makes no difference to what is yielded. -/
theorem Stream.Advances.of_pass {u : Utterance} {xs : List Labelled}
    (hread : material.take read.length = read) (hproduced : s.produced = (novelties read).length)
    (hold : Utterance.text u ∈ read.map Utterance.text)
    (h : Stream.Advances pull? origin material 1 (read ++ [u]) s xs read' s') :
    Stream.Advances pull? origin material 1 read s xs read' s' where
  after := h.after
  yielded := by rw [h.yielded, novelties_concat_of_mem hold]
  labels := h.labels
  length_le := h.length_le
  exhausted := h.exhausted
  frugal j hj hlt := by
    rcases Nat.eq_or_lt_of_le hj with rfl | hj
    · rw [hread, hproduced]
      exact Nat.lt_succ_self _
    · refine h.frugal j ?_ hlt
      rwa [List.length_append, List.length_singleton]
  target := h.target
  split := h.split
  cancelled := h.cancelled

/-- To stop where the source yields nothing more. -/
theorem Stream.Read.stop
    (h : ({ s with position, left } : Stream).Read pull? origin material read)
    (hrest : pulled pull? left position = []) :
    Stream.Advances pull? origin material 1 read s [] read { s with position, left := 0 } where
  after := {
    position := h.position
    rest := by
      have hmaterial : material = read ++ pulled pull? left position := h.rest
      rw [hmaterial, hrest]
      rfl
    seen := h.seen
    produced := h.produced }
  yielded := (List.append_nil _).symm
  labels := rfl
  length_le := Nat.zero_le 1
  exhausted _ := by
    have hmaterial : material = read ++ pulled pull? left position := h.rest
    rw [hmaterial, hrest, List.append_nil]
  frugal j hj hlt := absurd hlt (Nat.not_lt.mpr hj)
  target := rfl
  split := rfl
  cancelled := rfl

/-- To stop at a novelty. -/
theorem Stream.Read.find {u : Utterance} {position' : Position}
    (h : ({ s with position, left := left + 1 } : Stream).Read pull? origin material read)
    (hpull : pull? position = some (u, position'))
    (hnew : Utterance.text u ∉ read.map Utterance.text) :
    Stream.Advances pull? origin material 1 read s [(s.split.assign s.produced, u)] (read ++ [u])
      { s with
        position := position', left
        seen := s.seen.insert (Utterance.text u)
        produced := s.produced + 1 } where
  after := h.yield hpull hnew
  yielded := novelties_concat_of_notMem hnew
  labels := rfl
  length_le := le_rfl
  exhausted hlt := absurd hlt (Nat.lt_irrefl 1)
  frugal j hj hlt := by
    rw [List.length_append, List.length_singleton] at hlt
    obtain rfl : j = read.length := Nat.le_antisymm (Nat.le_of_lt_succ hlt) hj
    have hproduced : s.produced = (novelties read).length := h.produced
    rw [h.take_material, hproduced]
    exact Nat.lt_succ_self _
  target := rfl
  split := rfl
  cancelled := rfl

/-- **One search** yields the next novelty, or uses up the material. -/
theorem Stream.Read.seek
    (h : ({ s with position, left } : Stream).Read pull? origin material read) :
    ∃ found s' read', s.seek pull? left position .never = (found, s', .never) ∧
      Stream.Advances pull? origin material 1 read s found.toList read' s' := by
  induction left generalizing position read with
  | zero => exact ⟨none, _, read, rfl, h.stop rfl⟩
  | succ left ih =>
    rcases hpull : pull? position with _ | ⟨u, position'⟩
    · -- the source yields nothing, so nothing is left of the material
      refine ⟨none, _, read, ?_, h.stop (by rw [pulled, hpull])⟩
      rw [Stream.seek]
      simp only [Cancellation.check, hpull]
    · by_cases hold : Utterance.text u ∈ read.map Utterance.text
      · -- the search goes on behind an old utterance
        obtain ⟨found, s', read', hseek, hadvances⟩ := ih (h.pass hpull hold)
        refine ⟨found, s', read', ?_, hadvances.of_pass h.take_material h.produced hold⟩
        have hseen : s.seen.contains (Utterance.text u) = true := (h.seen _).mpr hold
        rw [Stream.seek]
        simp only [Cancellation.check, hpull, if_pos hseen, hseek]
      · refine ⟨some (s.split.assign s.produced, u), _, _, ?_, h.find hpull hold⟩
        have hseen : ¬ s.seen.contains (Utterance.text u) = true := fun hs => hold ((h.seen _).mp hs)
        rw [Stream.seek]
        simp only [Cancellation.check, hpull, if_neg hseen]

theorem Stream.Read.next (h : s.Read pull? origin material read) (hcancelled : s.cancelled = false)
    (hwanted : s.produced < s.target) :
    ∃ found s' read', s.next pull? .never = (found, s', .never) ∧
      Stream.Advances pull? origin material 1 read s found.toList read' s' := by
  obtain ⟨found, s', read', hseek, hadvances⟩ := Stream.Read.seek h
  have hopen : ¬ (s.target ≤ s.produced || s.cancelled) = true := by
    rw [hcancelled, Bool.or_false, decide_eq_true_eq]
    omega
  refine ⟨found, s', read', ?_, hadvances⟩
  rw [Stream.next, if_neg hopen, hseek]

/-! ### Whole runs -/

/-- Where nothing is found, to ask for more makes no difference. -/
theorem Stream.Advances.of_none {n : Nat}
    (h : Stream.Advances pull? origin material 1 read s [] read' s') :
    Stream.Advances pull? origin material (n + 1) read s [] read' s' where
  after := h.after
  yielded := h.yielded
  labels := h.labels
  length_le := Nat.zero_le _
  exhausted _ := h.exhausted Nat.one_pos
  frugal j hj hlt := (h.frugal j hj hlt).trans_le (by omega)
  target := h.target
  split := h.split
  cancelled := h.cancelled

/-- To go on behind a novelty. -/
theorem Stream.Advances.cons {n : Nat} {x : Labelled} {xs : List Labelled} {s'' : Stream}
    {read'' : List Utterance} (h : Stream.Advances pull? origin material 1 read s [x] read' s')
    (h' : Stream.Advances pull? origin material n read' s' xs read'' s'')
    (hproduced : s'.produced = s.produced + 1) :
    Stream.Advances pull? origin material (n + 1) read s (x :: xs) read'' s'' where
  after := h'.after
  yielded := by
    rw [h'.yielded, h.yielded, List.append_assoc]
    rfl
  labels := by
    have hx : x.1 = s.split.assign s.produced := List.head_eq_of_cons_eq h.labels
    rw [List.map_cons, List.length_cons, List.range'_succ, List.map_cons, h'.labels, h.split,
      hproduced, hx]
  length_le := Nat.succ_le_succ h'.length_le
  exhausted hlt := h'.exhausted (Nat.lt_of_succ_lt_succ hlt)
  frugal j hj hlt := by
    rcases Nat.lt_or_ge j read'.length with hj' | hj'
    · exact (h.frugal j hj hj').trans_le (by omega)
    · have hlater := h'.frugal j hj' hlt
      omega
  target := h'.target.trans h.target
  split := h'.split.trans h.split
  cancelled := h'.cancelled.trans h.cancelled

/-- **A run** of a stream that is not cancelled yields the next novelties of the material, as many
as it is asked for or all there are. -/
theorem Stream.Read.take (h : s.Read pull? origin material read) (hcancelled : s.cancelled = false)
    {n : Nat} (hn : s.produced + n ≤ s.target) :
    ∃ xs s' read', s.take pull? n .never = (xs, s', .never) ∧
      Stream.Advances pull? origin material n read s xs read' s' := by
  induction n generalizing s read with
  | zero =>
    refine ⟨[], s, read, rfl, ?_⟩
    exact {
      after := h
      yielded := (List.append_nil _).symm
      labels := rfl
      length_le := le_rfl
      exhausted := fun hlt => absurd hlt (Nat.lt_irrefl 0)
      frugal := fun j hj hlt => absurd hlt (Nat.not_lt.mpr hj)
      target := rfl
      split := rfl
      cancelled := rfl }
  | succ n ih =>
    obtain ⟨found, s', read', hnext, hadvances⟩ := h.next hcancelled (by omega)
    rcases found with _ | x
    · refine ⟨[], s', read', ?_, hadvances.of_none⟩
      rw [Stream.take, hnext]
    · have hproduced : s'.produced = s.produced + 1 := by
        rw [hadvances.after.produced, hadvances.yielded, h.produced]
        exact List.length_append
      obtain ⟨xs, s'', read'', htake, hadvances'⟩ := ih hadvances.after
        (hadvances.cancelled.trans hcancelled) (by rw [hproduced, hadvances.target]; omega)
      refine ⟨x :: xs, s'', read'', ?_, hadvances.cons hadvances' hproduced⟩
      rw [Stream.take, hnext]
      simp only [htake]

theorem Stream.Read.isPrefix (h : s.Read pull? origin material read) : read <+: material := by
  rw [h.rest]
  exact List.prefix_append _ _

/-- What is yielded from the start on are the first novelties of the material. -/
theorem Stream.Advances.utterances {n : Nat} {xs : List Labelled}
    (h : Stream.Advances pull? origin material n [] s xs read' s') :
    xs.map (·.2) = (novelties material).take n := by
  have hyielded : novelties read' = xs.map (·.2) := h.yielded
  rcases Nat.eq_or_lt_of_le h.length_le with hlength | hlength
  · have hfirst := novelties_isPrefix h.after.isPrefix
    rw [hyielded] at hfirst
    rw [List.prefix_iff_eq_take.mp hfirst, List.length_map, hlength]
  · rw [← h.exhausted hlength, hyielded, List.take_of_length_le]
    rw [List.length_map]
    exact hlength.le

/-- A stream that has yielded as many utterances as it was asked for, or all there are, has reached
its end. -/
theorem Stream.Advances.next_eq_none {n : Nat} {xs : List Labelled}
    (h : Stream.Advances pull? origin material n read s xs read' s')
    (hproduced : s.produced = (novelties read).length) (hn : s.produced + n = s.target) :
    (s'.next pull? .never).1 = none := by
  rw [Stream.next]
  split
  · rfl
  · next hopen =>
    -- the target is not reached, so the material is used up and there is no novelty left in it
    have hcount : s'.produced = s.produced + xs.length := by
      rw [h.after.produced, h.yielded, List.length_append, List.length_map, hproduced]
    have hshort : xs.length < n := by
      have htarget := h.target
      simp only [Bool.or_eq_true, decide_eq_true_eq, not_or] at hopen
      omega
    have hall : read' = material := h.exhausted hshort
    obtain ⟨found, s'', read'', hseek, hadvances⟩ := Stream.Read.seek h.after
    have hlength := (novelties_isPrefix hadvances.after.isPrefix).length_le
    rw [hadvances.yielded, hall, List.length_append] at hlength
    rw [hseek]
    rcases found with _ | x
    · rfl
    · simp at hlength

end Runs

/-! ### Plans -/

/-- The split for so many utterances, which matters only if something is kept for testing. -/
def Split.fitted (s : Split) (unique : Nat) : Split :=
  if 0 < s.test then s.rescale unique else s

namespace Generator

variable (gen : Generator) (plan : Plan gen.graph)

/-- How often the source of a plan may be looked at: once for every expansion, or as often as the
settings allow for the utterances wanted. -/
def looks : Nat :=
  match plan.strategy with
  | .exhaustive _ => (gen.graph.count plan.intent).toNat
  | .sampled _ => min (gen.settings.attemptsPerExample * plan.target) maxCount

/-- Where the source of a plan begins: at the first expansion, or with the seed. -/
def origin : Position :=
  match plan.strategy with
  | .exhaustive _ => .path 0
  | .sampled _ => .draw (.ofSeed plan.seed)

/-- All that the source of a plan offers: the expansions of the intent in order, or so many draws
one after the other. -/
def material : List Utterance :=
  pulled (gen.pull? plan.intent) (gen.looks plan) (gen.origin plan)

/-- What a plan comes to: all that its stream yields, the stream at its end, and what is left of the
cancellation. -/
def outcome (c : Cancellation) : List Labelled × Stream × Cancellation :=
  gen.rest plan (gen.stream plan c).1 (gen.stream plan c).2

variable {gen}

theorem read_start (split : Split) :
    (gen.start plan split).Read (gen.pull? plan.intent) (gen.origin plan) (gen.material plan)
      [] where
  position := by
    rw [start, origin]
    cases plan.strategy <;> rfl
  rest := by
    rw [material, looks, origin, start]
    cases plan.strategy <;> rfl
  seen text := by
    rw [start]
    simp
  produced := rfl

/-- **A plan carried out** without cancellation, with a split of whatever kind. -/
theorem exists_rest_start (split : Split) :
    ∃ xs s read, gen.rest plan (gen.start plan split) .never = (xs, s, .never) ∧
      Stream.Advances (gen.pull? plan.intent) (gen.origin plan) (gen.material plan) plan.target []
        (gen.start plan split) xs read s :=
  (read_start plan split).take rfl (Nat.zero_add plan.target).le

/-- The split makes no difference to the utterances. -/
theorem utterances_rest_start (split : Split) :
    (gen.rest plan (gen.start plan split) .never).1.map (·.2)
      = (novelties (gen.material plan)).take plan.target := by
  obtain ⟨xs, s, read, hrest, hadvances⟩ := exists_rest_start plan split
  rw [hrest]
  exact hadvances.utterances

/-- The split alone decides what the utterances are for. -/
theorem labels_rest_start (split : Split) :
    (gen.rest plan (gen.start plan split) .never).1.map (·.1)
      = (List.range (gen.rest plan (gen.start plan split) .never).1.length).map split.assign := by
  obtain ⟨xs, s, read, hrest, hadvances⟩ := exists_rest_start plan split
  rw [hrest, List.range_eq_range']
  exact hadvances.labels

/-- The split that a plan is carried out with if it is not cancelled. -/
theorem fitSplit_never :
    gen.fitSplit plan .never
      = (plan.split.fitted (gen.rest plan (gen.start plan (.none plan.target)) .never).1.length,
          .never) := by
  obtain ⟨xs, s, read, hrest, -⟩ := exists_rest_start plan (.none plan.target)
  rw [fitSplit, Split.fitted]
  split
  · simp only [hrest]
  · rfl

theorem outcome_never :
    gen.outcome plan .never
      = gen.rest plan (gen.start plan (gen.fitSplit plan .never).1) .never := by
  rw [outcome, stream, fitSplit_never]

theorem utterances_outcome :
    (gen.outcome plan .never).1.map (·.2) = (novelties (gen.material plan)).take plan.target := by
  rw [outcome_never]
  exact utterances_rest_start plan _

/-- What is counted in advance is what is yielded. -/
theorem length_rest_start (split : Split) :
    (gen.rest plan (gen.start plan split) .never).1.length
      = (gen.outcome plan .never).1.length := by
  have hsame := (utterances_rest_start plan split).trans (utterances_outcome plan).symm
  simpa using congrArg List.length hsame

theorem labels_outcome :
    (gen.outcome plan .never).1.map (·.1) = (List.range (gen.outcome plan .never).1.length).map
      (plan.split.fitted (gen.outcome plan .never).1.length).assign := by
  have hlabels := labels_rest_start plan (gen.fitSplit plan .never).1
  rwa [← outcome_never, fitSplit_never, length_rest_start] at hlabels

end Generator

theorem pull?_draw {gen : Generator} {v : Fin gen.graph.size} {u : Utterance}
    {source source' : ChaCha12.Generator}
    (hrun : (gen.graph.drawUtterance gen.settings v).run source = some (u, source')) :
    gen.pull? v (.draw source) = some (u, .draw source') := by
  have hdraw : gen.graph.drawUtterance gen.settings v source = some (u, source') := hrun
  rw [Generator.pull?, hdraw]
  rfl

/-- No draw fails. -/
theorem length_pulled_draw {gen : Generator} (hg : gen.graph.Valid) (v : Fin gen.graph.size)
    (left : Nat) (source : ChaCha12.Generator) :
    (pulled (gen.pull? v) left (.draw source)).length = left := by
  induction left generalizing source with
  | zero => rfl
  | succ left ih =>
    obtain ⟨u, source', hrun, -⟩ := hg.yields_drawUtterance gen.settings v source
    rw [pulled, pull?_draw hrun]
    exact congrArg (· + 1) (ih source')

/-- The intent of the plan is to be generated as the generator plans it, for some request; the target
and the seed may be others. -/
def Generator.Plans (gen : Generator) (plan : Plan gen.graph) : Prop :=
  ∃ name request planned, gen.Fits request ∧ gen.plan name request = .ok planned ∧
    planned.intent = plan.intent ∧ planned.strategy = plan.strategy

/-- The material is complete: no draw fails, and no expansion that is enumerated is missing. -/
theorem length_material {gen : Generator} (hg : gen.graph.Valid) {plan : Plan gen.graph}
    (hplan : gen.Plans plan) : (gen.material plan).length = gen.looks plan := by
  rw [Generator.material, Generator.looks, Generator.origin]
  rcases hstrategy : plan.strategy with paths | draws
  · obtain ⟨name, request, planned, hfits, hplanned, hintent, hsame⟩ := hplan
    have hv : gen.graph.network.Few plan.intent := by
      rw [← hintent]
      exact (few_of_strategy hg hfits hplanned (hsame.trans hstrategy)).1
    obtain ⟨ds, hlength, -, -, -, hpulled⟩ := exists_pulled_eq hg hv
    rw [hg.toNat_count hv, hpulled, List.length_map, hlength]
  · exact length_pulled_draw hg plan.intent _ _

/-! ### A grammar in which a text comes twice -/

/-- A greeting with an optional word, and the same one without it.  The header asks for three
utterances and keeps one of them for testing. -/
def Grammar.greetings : Grammar where
  source := ""
  definitions := [
    { key := ⟨.intent, "greet", none⟩, arguments := [("training", "2"), ("testing", "1")], line := 1
      alternatives := [
        { elements := [.literal "hello" false, .literal "there" true], weight := none, line := 2 },
        { elements := [.literal "hello" false], weight := none, line := 3 }] }]

/-- The network of that grammar. -/
def Network.greetings : Network 1 := #v[
  { key := ⟨.intent, "greet", none⟩, arguments := [("training", "2"), ("testing", "1")]
    choices := [
      { steps := [.words ["hello"] false, .words ["there"] true], weight := none, line := 2 },
      { steps := [.words ["hello"] false], weight := none, line := 3 }] }]

/-- A generator for that grammar. -/
def Generator.greetings : Generator where
  graph := ⟨1, .greetings, Network.greetings.counts, #v[[0.5, 0.5]], Grammar.greetings.contentHash⟩
  settings := {}
  seed := 7

/-- The plan for its intent. -/
def Plan.greetings : Plan Generator.greetings.graph :=
  Generator.greetings.planAt (0 : Fin 1) "greet" (some (.samples 3, 1)) {}

theorem link_greetings : link Grammar.greetings.definitions = .ok Network.greetings := by
  with_unfolding_all rfl

theorem probabilities_greetings : Network.greetings.probabilities 10000 = .ok #v[[0.5, 0.5]] :=
  probabilities_eq_ok (by decide +kernel)

theorem build_greetings : Graph.build .greetings 10000 = .ok Generator.greetings.graph := by
  have hcheck : Network.greetings.check = .ok () := rfl
  exact build_eq_ok_iff.mpr ⟨_, link_greetings, _, probabilities_greetings, hcheck, rfl⟩

/-! ### The theorem -/

/-- **A stream that is not cancelled** yields the first novelties of the material of its plan, as
many as the target says, so no text comes twice and none is in both parts.  It stops in front of the
target only at the end of the material, and otherwise with the look that reaches the target; and
then it is at its end.  For what the generator plans the material is complete: it has a member for
every look that the plan allows. -/
theorem stream_yields_novelties {grammar : Grammar} {ceiling : Nat} {gen : Generator}
    (hbuild : Graph.build grammar ceiling = .ok gen.graph) (plan : Plan gen.graph) :
    (gen.Plans plan → (gen.material plan).length = gen.looks plan) ∧
      ∃ xs s read, gen.outcome plan .never = (xs, s, .never) ∧
        xs.map (·.2) = (novelties (gen.material plan)).take plan.target ∧
        (xs.map fun x => Utterance.text x.2).Nodup ∧
        (∀ x ∈ xs, ∀ y ∈ xs, x.1 = .training → y.1 = .testing →
          Utterance.text x.2 ≠ Utterance.text y.2) ∧
        xs.length ≤ plan.target ∧
        read <+: gen.material plan ∧
        positionAfter? (gen.pull? plan.intent) (gen.origin plan) read.length = some s.position ∧
        (xs.length < plan.target → read = gen.material plan) ∧
        (∀ j < read.length, (novelties ((gen.material plan).take j)).length < plan.target) ∧
        (s.next (gen.pull? plan.intent) .never).1 = none := by
  have hg := valid_of_build hbuild
  refine ⟨length_material hg, ?_⟩
  obtain ⟨xs, s, read, hrest, h⟩ :=
    Generator.exists_rest_start plan (gen.fitSplit plan .never).1
  have hnodup : (xs.map fun x => Utterance.text x.2).Nodup := by
    have htake := (nodup_text_novelties (gen.material plan)).sublist
      ((List.take_sublist plan.target _).map Utterance.text)
    rwa [← h.utterances, List.map_map] at htake
  refine ⟨xs, s, read, ?_, h.utterances, hnodup, ?_, h.length_le, h.after.isPrefix,
    h.after.position, h.exhausted, ?_, ?_⟩
  · rw [Generator.outcome_never, hrest]
  · intro x hx y hy htraining htesting heq
    have hxy : x = y := List.inj_on_of_nodup_map hnodup hx hy heq
    rw [hxy, htesting] at htraining
    cases htraining
  · intro j hj
    have hfrugal := h.frugal j (Nat.zero_le j) hj
    rwa [Generator.start, Nat.zero_add] at hfrugal
  · exact h.next_eq_none rfl (Nat.zero_add plan.target)

/-- Of the three ways to greet two are spelled alike, so only two are yielded. -/
theorem stream_of_greetings :
    Graph.build .greetings 10000 = .ok Generator.greetings.graph ∧
      Generator.greetings.Plans Plan.greetings ∧
      Plan.greetings.strategy = .exhaustive 3 ∧
      (Generator.greetings.material Plan.greetings).length = 3 ∧
      ∃ xs s read, Generator.greetings.outcome Plan.greetings .never = (xs, s, .never) ∧
        xs.map (·.2) = [wordTokens ["hello", "there"], wordTokens ["hello"]] ∧
        read = [wordTokens ["hello", "there"], wordTokens ["hello"], wordTokens ["hello"]] := by
  obtain ⟨hcomplete, xs, s, read, houtcome, hutterances, -, -, -, -, -, hall, -⟩ :=
    stream_yields_novelties build_greetings Plan.greetings
  have hplans : Generator.greetings.Plans Plan.greetings :=
    ⟨"greet", {}, Plan.greetings, ⟨by decide, nofun⟩, rfl, rfl, rfl⟩
  have hlooks : Generator.greetings.looks Plan.greetings = 3 := by decide +kernel
  have hmaterial : Generator.greetings.material Plan.greetings
      = [wordTokens ["hello", "there"], wordTokens ["hello"], wordTokens ["hello"]] := by
    decide +kernel
  have htarget : Plan.greetings.target = 3 := by decide +kernel
  have hnovel : (novelties (Generator.greetings.material Plan.greetings)).take Plan.greetings.target
      = [wordTokens ["hello", "there"], wordTokens ["hello"]] := by decide +kernel
  rw [hnovel] at hutterances
  have hlength : xs.length = 2 := by
    rw [← List.length_map (·.2), hutterances]
    rfl
  refine ⟨build_greetings, hplans, by decide +kernel, (hcomplete hplans).trans hlooks, xs, s, read,
    houtcome, hutterances, ?_⟩
  rw [hall (by rw [hlength, htarget]; decide), hmaterial]

end IntentGrammar
