import IntentGrammar.Proofs.Sampling

/-!
# How deep random expansions go

Sampling is a recursion without a measure in its arguments: a reference that may be left out can
lead back to where it stands, and certainty keeps it every time.  `Graph.Draws` says what a run of
this recursion is, without any bound on it, and which calls it makes: there is a run exactly if it
comes to an end, and `drawExpansion` within a number of levels is that run wherever no call needs
more levels (`run_drawExpansion_iff`).

Every run ends, and no call in it is further down than the greatest depth and a path through all
definitions (**`sampling_ends`**).
-/

namespace IntentGrammar

namespace Graph

section Runs

variable {σ : Type} [WordSource σ]

mutual

/-- An expansion of `v` is drawn at a depth, where the words from `source` on are drawn up to
`source'`, and the calls on the way are at the depths listed, the first one for `v` itself. -/
inductive Draws (g : Graph) (settings : Settings) :
    (depth : Nat) → (v : Fin g.size) → (source : σ) → Expansion → (source' : σ) → List Nat → Prop
  | expand {depth : Nat} {v : Fin g.size} {source source₁ source' : σ} {roll : Float}
      {c : Choice g.size} {parts : List (List Token)} {depths : List Nat}
      (hroll : drawUnit.run source = some (roll, source₁))
      (hpick : roulette roll (g.weighted v) = some c)
      (hsteps : DrawsSteps g settings depth c.steps source₁ parts source' depths) :
      Draws g settings depth v source ⟨parts.flatten, g.synonym? v c⟩ source' (depth :: depths)

/-- The tokens of steps are drawn in order. -/
inductive DrawsSteps (g : Graph) (settings : Settings) :
    (depth : Nat) → List (Step g.size) → (source : σ) → List (List Token) → (source' : σ) →
      List Nat → Prop
  | nil {depth : Nat} {source : σ} : DrawsSteps g settings depth [] source [] source []
  | cons {depth : Nat} {s : Step g.size} {steps : List (Step g.size)} {source source₁ source' : σ}
      {tokens : List Token} {parts : List (List Token)} {depths depths' : List Nat}
      (h : DrawsStep g settings depth s source tokens source₁ depths)
      (hsteps : DrawsSteps g settings depth steps source₁ parts source' depths') :
      DrawsSteps g settings depth (s :: steps) source (tokens :: parts) source' (depths ++ depths')

/-- The tokens of a step are drawn: words are kept or not, and a reference that is kept is a call
one level further down. -/
inductive DrawsStep (g : Graph) (settings : Settings) :
    (depth : Nat) → Step g.size → (source : σ) → List Token → (source' : σ) → List Nat → Prop
  | words {depth : Nat} {words : List String} {optional present : Bool} {source source' : σ}
      (h : (if optional then drawBool settings.optionalProbability else pure true).run source
        = some (present, source')) :
      DrawsStep g settings depth (.words words optional) source
        (if present then wordTokens words else []) source' []
  | leave {depth : Nat} {target : Fin g.size} {optional : Bool} {source source' : σ}
      (h : (drawPresent settings depth optional).run source = some (false, source')) :
      DrawsStep g settings depth (.reference target optional) source [] source' []
  | follow {depth : Nat} {target : Fin g.size} {optional : Bool} {source source₁ source' : σ}
      {e : Expansion} {depths : List Nat}
      (h : (drawPresent settings depth optional).run source = some (true, source₁))
      (he : Draws g settings (depth + 1) target source₁ e source' depths) :
      DrawsStep g settings depth (.reference target optional) source
        (e.place (g.node target).key) source' depths

end

end Runs

/-! ### Runs within a number of levels -/

section Levels

variable {σ α β : Type}

theorem run_bind_eq_some_iff {m : Drawing σ α} {f : α → Drawing σ β} {source source' : σ} {b : β} :
    (m >>= f).run source = some (b, source') ↔
      ∃ a source₁, m.run source = some (a, source₁) ∧ (f a).run source₁ = some (b, source') := by
  rw [StateT.run_bind, Option.bind_eq_bind, Option.bind_eq_some_iff]
  exact ⟨fun ⟨⟨a, source₁⟩, hm, hf⟩ => ⟨a, source₁, hm, hf⟩,
    fun ⟨a, source₁, hm, hf⟩ => ⟨⟨a, source₁⟩, hm, hf⟩⟩

theorem run_pure_eq_some_iff {source source' : σ} {a b : α} :
    (pure a : Drawing σ α).run source = some (b, source') ↔ a = b ∧ source = source' := by
  rw [StateT.run_pure, Option.pure_def, Option.some.injEq, Prod.mk.injEq]

variable [WordSource σ] {g : Graph} {settings : Settings} {depth bound : Nat}
  {expand : Fin g.size → Drawing σ Expansion}

/-- One level below a depth, expansions are drawn exactly by the runs without a call at the level
`bound` or further down. -/
def DrawsBelow (g : Graph) (settings : Settings) (depth bound : Nat)
    (expand : Fin g.size → Drawing σ Expansion) : Prop :=
  ∀ target source e source', (expand target).run source = some (e, source') ↔
    ∃ depths, g.Draws settings (depth + 1) target source e source' depths ∧
      ∀ k ∈ depths, k < bound

theorem run_drawStep_iff (hexpand : g.DrawsBelow settings depth bound expand) (s : Step g.size)
    {source source' : σ} {tokens : List Token} :
    (g.drawStep settings expand depth s).run source = some (tokens, source') ↔
      ∃ depths, g.DrawsStep settings depth s source tokens source' depths ∧
        ∀ k ∈ depths, k < bound := by
  cases s with
  | words words optional =>
    have hwords : g.drawStep settings expand depth (.words words optional)
        = (if optional then drawBool settings.optionalProbability else pure true : Drawing σ Bool)
          >>= fun present => pure (if present then wordTokens words else []) := by
      cases optional with
      | false => rfl
      | true => rfl
    rw [hwords, run_bind_eq_some_iff]
    simp only [run_pure_eq_some_iff]
    constructor
    · rintro ⟨present, source₁, h, rfl, rfl⟩
      exact ⟨[], .words h, nofun⟩
    · rintro ⟨depths, h, -⟩
      cases h with
      | words h => exact ⟨_, _, h, rfl, rfl⟩
  | reference target optional =>
    rw [drawStep, run_bind_eq_some_iff]
    constructor
    · rintro ⟨present, source₁, h, hrest⟩
      cases present with
      | false =>
        obtain ⟨rfl, rfl⟩ := run_pure_eq_some_iff.mp hrest
        exact ⟨[], .leave h, nofun⟩
      | true =>
        obtain ⟨e, source₂, he, hrest⟩ := run_bind_eq_some_iff.mp hrest
        obtain ⟨rfl, rfl⟩ := run_pure_eq_some_iff.mp hrest
        obtain ⟨depths, he, hlt⟩ := (hexpand target source₁ e source₂).mp he
        exact ⟨depths, .follow h he, hlt⟩
    · rintro ⟨depths, h, hlt⟩
      cases h with
      | leave h => exact ⟨false, _, h, run_pure_eq_some_iff.mpr ⟨rfl, rfl⟩⟩
      | follow h he =>
        refine ⟨true, _, h, run_bind_eq_some_iff.mpr ⟨_, _, (hexpand _ _ _ _).mpr ⟨_, he, hlt⟩, ?_⟩⟩
        exact run_pure_eq_some_iff.mpr ⟨rfl, rfl⟩

theorem run_drawSteps_iff (hexpand : g.DrawsBelow settings depth bound expand)
    (steps : List (Step g.size)) {source source' : σ} {parts : List (List Token)} :
    (steps.mapM (g.drawStep settings expand depth)).run source = some (parts, source') ↔
      ∃ depths, g.DrawsSteps settings depth steps source parts source' depths ∧
        ∀ k ∈ depths, k < bound := by
  induction steps generalizing source source' parts with
  | nil =>
    rw [List.mapM_nil, run_pure_eq_some_iff]
    constructor
    · rintro ⟨rfl, rfl⟩
      exact ⟨[], .nil, nofun⟩
    · rintro ⟨depths, h, -⟩
      cases h
      exact ⟨rfl, rfl⟩
  | cons s steps ih =>
    rw [List.mapM_cons, run_bind_eq_some_iff]
    simp only [run_bind_eq_some_iff, run_pure_eq_some_iff, run_drawStep_iff hexpand, ih]
    constructor
    · rintro ⟨tokens, source₁, ⟨depths, h, hlt⟩, parts, source₂, ⟨depths', hsteps, hlt'⟩, rfl, rfl⟩
      exact ⟨depths ++ depths', .cons h hsteps, List.forall_mem_append.mpr ⟨hlt, hlt'⟩⟩
    · rintro ⟨depths, h, hlt⟩
      cases h with
      | cons h hsteps =>
        obtain ⟨hlt, hlt'⟩ := List.forall_mem_append.mp hlt
        exact ⟨_, _, ⟨_, h, hlt⟩, _, _, ⟨_, hsteps, hlt'⟩, rfl, rfl⟩

/-- **Within a number of levels** an expansion is drawn exactly if there is a run that needs no
more levels. -/
theorem run_drawExpansion_iff {fuel : Nat} {v : Fin g.size} {source source' : σ} {e : Expansion} :
    (g.drawExpansion settings fuel depth v).run source = some (e, source') ↔
      ∃ depths, g.Draws settings depth v source e source' depths ∧
        ∀ k ∈ depths, k < depth + fuel := by
  induction fuel generalizing depth v source source' e with
  | zero =>
    constructor
    · intro h
      cases h
    · rintro ⟨depths, h, hlt⟩
      -- the call for the definition itself needs a level
      cases h
      exact absurd (hlt depth List.mem_cons_self) (Nat.lt_irrefl depth)
  | succ fuel ih =>
    -- the levels that are left one further down
    have hexpand : g.DrawsBelow settings depth (depth + (fuel + 1))
        (g.drawExpansion settings fuel (depth + 1) : Fin g.size → Drawing σ Expansion) := by
      intro target source e source'
      rw [ih, Nat.add_right_comm, Nat.add_assoc]
    rw [drawExpansion, run_bind_eq_some_iff]
    constructor
    · rintro ⟨roll, source₁, hroll, hrest⟩
      rcases hpick : roulette roll (g.weighted v) with _ | c
      · rw [hpick] at hrest
        cases hrest
      · rw [hpick] at hrest
        obtain ⟨parts, source₂, hparts, hrest⟩ := run_bind_eq_some_iff.mp hrest
        obtain ⟨rfl, rfl⟩ := run_pure_eq_some_iff.mp hrest
        obtain ⟨depths, hsteps, hlt⟩ := (run_drawSteps_iff hexpand c.steps).mp hparts
        refine ⟨depth :: depths, .expand hroll hpick hsteps, List.forall_mem_cons.mpr ⟨?_, hlt⟩⟩
        exact Nat.lt_add_of_pos_right (Nat.succ_pos fuel)
    · rintro ⟨depths, h, hlt⟩
      cases h with
      | expand hroll hpick hsteps =>
        refine ⟨_, _, hroll, ?_⟩
        rw [hpick]
        have hparts := (run_drawSteps_iff hexpand _).mpr ⟨_, hsteps, (List.forall_mem_cons.mp hlt).2⟩
        exact run_bind_eq_some_iff.mpr ⟨_, _, hparts, run_pure_eq_some_iff.mpr ⟨rfl, rfl⟩⟩

end Levels

/-! ### No call is too deep -/

section Bound

variable {σ : Type} [WordSource σ] {g : Graph} {settings : Settings} {depth bound : Nat}
  {v : Fin g.size} {source source' : σ}

/-- A reference that is followed is above the greatest depth if it might have been left out. -/
theorem lt_maxDepth_of_followed {optional : Bool}
    (h : (drawPresent settings depth optional).run source = some (true, source'))
    (ho : optional = true) : depth < settings.maxDepth := by
  have hyields : Drawing.Yields (drawPresent settings depth optional : Drawing σ Bool) _ :=
    yields_drawPresent optional
  obtain ⟨present, source₁, hrun, hkeep, -⟩ := hyields source
  rw [h] at hrun
  cases hrun
  exact hkeep rfl ho

/-- The calls for steps are no deeper than those for the references that are followed. -/
theorem DrawsSteps.lt {steps : List (Step g.size)} {parts : List (List Token)} {depths : List Nat}
    (h : g.DrawsSteps settings depth steps source parts source' depths)
    (hnext : ∀ target optional, Step.reference target optional ∈ steps →
      (optional = true → depth < settings.maxDepth) → ∀ (source source' : σ) e depths,
      g.Draws settings (depth + 1) target source e source' depths → ∀ k ∈ depths, k < bound) :
    ∀ k ∈ depths, k < bound := by
  induction steps generalizing source parts depths with
  | nil =>
    cases h
    exact nofun
  | cons s steps ih =>
    cases h with
    | cons hs hsteps =>
      refine List.forall_mem_append.mpr ⟨?_, ih hsteps fun target optional ht =>
        hnext target optional (List.mem_cons_of_mem s ht)⟩
      cases hs with
      | words h => exact nofun
      | leave h => exact nofun
      | follow h he =>
        exact hnext _ _ List.mem_cons_self (lt_maxDepth_of_followed h) _ _ _ _ he

theorem choice_mem_of_roulette {c : Choice g.size} {roll : Float}
    (h : roulette roll (g.weighted v) = some c) : c ∈ (g.network.get v).choices := by
  have hne : g.weighted v ≠ [] := by
    intro hnil
    rw [hnil] at h
    cases h
  obtain ⟨c', p, hc', hmem, -⟩ := exists_roulette hne roll
  rw [h] at hc'
  cases hc'
  exact (List.of_mem_zip hmem).1

/-- **No call in a run** needs more levels than are enough. -/
theorem Enough.lt (hg : g.Valid) {fuel : Nat} (h : g.Enough settings fuel depth v) {e : Expansion}
    {depths : List Nat} (hrun : g.Draws settings depth v source e source' depths) :
    ∀ k ∈ depths, k < depth + fuel := by
  induction fuel generalizing depth v source source' e depths with
  | zero => exact absurd h.pos (Nat.lt_irrefl 0)
  | succ fuel ih =>
    cases hrun with
    | expand hroll hpick hsteps =>
      -- a reference that is followed leaves one level less, and enough of them
      refine List.forall_mem_cons.mpr ⟨Nat.lt_add_of_pos_right (Nat.succ_pos fuel), ?_⟩
      refine hsteps.lt fun target optional ht hkeep source source' e depths he => ?_
      have hdeeper := ih (h.next hg ⟨_, choice_mem_of_roulette hpick, ht⟩ hkeep) he
      rwa [Nat.add_right_comm, Nat.add_assoc] at hdeeper

end Bound

end Graph

/-- **Sampling ends.**  In a graph of `n` definitions, whatever the random words and the settings
are, there is a run of the sampler for every definition, which yields the utterance that is drawn;
and no call in it is deeper than the greatest depth and `n - 1` more. -/
theorem sampling_ends {grammar : Grammar} {ceiling : Nat} {graph : Graph}
    (hbuild : Graph.build grammar ceiling = .ok graph) {σ : Type} [WordSource σ]
    (settings : Settings) (v : Fin graph.size) (source : σ) :
    (∃ e source' depths, graph.Draws settings 0 v source e source' depths) ∧
    ∀ e source' depths, graph.Draws settings 0 v source e source' depths →
      (graph.drawUtterance settings v).run source = some (e.tokens, source') ∧
      ∀ k ∈ depths, k ≤ settings.maxDepth + graph.size - 1 := by
  have hg := valid_of_build hbuild
  have henough : graph.Enough settings (settings.maxDepth + graph.size) 0 v := .inl le_rfl
  constructor
  · obtain ⟨e, source', hrun, -⟩ := hg.yields_drawExpansion henough source
    obtain ⟨depths, hdraws, -⟩ := Graph.run_drawExpansion_iff.mp hrun
    exact ⟨e, source', depths, hdraws⟩
  · intro e source' depths hdraws
    have hlt := henough.lt hg hdraws
    have hrun := Graph.run_drawExpansion_iff.mpr ⟨depths, hdraws, hlt⟩
    constructor
    · exact Graph.run_bind_eq_some_iff.mpr ⟨e, source', hrun, rfl⟩
    · intro k hk
      have hk := hlt k hk
      omega

/-- Among the drinks there is an alias that may be repeated.  If that is certain, it is repeated one
level further down, where the greatest depth is reached, and not again. -/
theorem depths_of_drinks : ∃ (e : Expansion) (source : ChaCha12.Generator),
    Graph.build .drinks 10000 = .ok .drinks ∧ Graph.drinks.network.Refers (3 : Fin 4) (3 : Fin 4) ∧
      Graph.drinks.Draws { optionalProbability := 1.0, maxDepth := 1 } 0 (3 : Fin 4)
        (ChaCha12.Generator.ofSeed 7) e source [0, 1] ∧
      (Graph.drinks.drawUtterance { optionalProbability := 1.0, maxDepth := 1 } (3 : Fin 4)).run
        (ChaCha12.Generator.ofSeed 7) = some (wordTokens ["very", "very"], source) ∧
      ∀ k ∈ [0, 1], k ≤ 1 + 4 - 1 := by
  have hrefers : Network.drinks.Refers 3 3 :=
    ⟨_, List.mem_singleton_self _, true, List.mem_cons_of_mem _ (List.mem_singleton_self _)⟩
  -- the only sentence is picked, whatever is rolled
  have hpick (roll : Float) : roulette roll (Graph.drinks.weighted (3 : Fin 4))
      = some ⟨[.words ["very"] false, .reference (3 : Fin 4) true], none, 9⟩ := by
    have hsingle : Graph.drinks.weighted (3 : Fin 4)
        = [(⟨[.words ["very"] false, .reference (3 : Fin 4) true], none, 9⟩, 1.0)] := rfl
    have hpositive : (0.0 : Float) < 1.0 := by decide +kernel
    rw [hsingle, roulette, rouletteFrom, if_pos hpositive]
    split
    · rfl
    · rfl
  have hcertain : ((1.0 : Float) == 1.0) = true := by decide +kernel
  have hfollow (source : ChaCha12.Generator) :
      (Graph.drawPresent { optionalProbability := 1.0, maxDepth := 1 } 0 true).run source
        = some (true, source) := by
    have hdraws : Graph.drawPresent (σ := ChaCha12.Generator)
        { optionalProbability := 1.0, maxDepth := 1 } 0 true = drawBool 1.0 := rfl
    rw [hdraws, drawBool, if_pos hcertain]
    rfl
  let settings : Settings := { optionalProbability := 1.0, maxDepth := 1 }
  have hdraws : Graph.drinks.Draws settings 0 (3 : Fin 4) (ChaCha12.Generator.ofSeed 7) _ _ [0, 1] :=
    .expand rfl (hpick _) <| .cons (.words rfl) <| .cons
      (.follow (hfollow _) <| .expand rfl (hpick _) <| .cons (.words rfl) <| .cons
        (.leave rfl) .nil) .nil
  obtain ⟨hrun, hdepths⟩ := (sampling_ends build_drinks settings (3 : Fin 4) _).2 _ _ _ hdraws
  exact ⟨_, _, build_drinks, hrefers, hdraws, hrun, hdepths⟩

end IntentGrammar
