import IntentGrammar.Proofs.Shares

/-!
# Asking for more

A plan for more utterances yields what a plan for fewer does, and more behind it
(**`Generator.Extends.yielded_isPrefix`**).  Two plans for an intent that are made of the same kind
look at one source from its beginning, the one for more utterances at least as often.  So the
material of the one is a first part of the material of the other
(`Generator.Extends.material_isPrefix`), and what is yielded are the first novelties of the
material, whatever is kept for testing and whether or not utterances have been counted for it in
advance.

That plans are of one kind has to be asked for: with enough utterances wanted an intent is
enumerated, and an enumeration does not begin with what is drawn.
-/

namespace IntentGrammar

/-- Both strategies enumerate, or both draw. -/
inductive Strategy.SameKind : Strategy → Strategy → Prop
  | exhaustive (paths paths' : Nat) : SameKind (.exhaustive paths) (.exhaustive paths')
  | sampled (draws draws' : Nat) : SameKind (.sampled draws) (.sampled draws')

theorem Strategy.SameKind.refl (s : Strategy) : s.SameKind s := by
  cases s with
  | exhaustive paths => exact .exhaustive paths paths
  | sampled draws => exact .sampled draws draws

/-! ### Sources -/

/-- To look more often only adds. -/
theorem pulled_isPrefix (pull? : Position → Option (Utterance × Position)) {left left' : Nat}
    (h : left ≤ left') (position : Position) :
    pulled pull? left position <+: pulled pull? left' position := by
  induction left generalizing left' position with
  | zero => exact List.nil_prefix
  | succ left ih =>
    obtain ⟨left', rfl⟩ := Nat.exists_eq_add_of_lt h
    rw [pulled, pulled]
    rcases pull? position with _ | ⟨u, position'⟩
    · exact List.nil_prefix
    · exact List.cons_prefix_cons.mpr ⟨rfl, ih (by omega) position'⟩

theorem take_isPrefix_take {α : Type} {xs ys : List α} (h : xs <+: ys) {n m : Nat} (hnm : n ≤ m) :
    xs.take n <+: ys.take m :=
  (h.take n).trans (List.take_prefix_take_left hnm)

namespace Generator

variable {gen : Generator}

/-- What a plan yields without cancellation, whatever the utterances are for. -/
def yielded (gen : Generator) (plan : Plan gen.graph) : List Utterance :=
  (gen.outcome plan .never).1.map (·.2)

theorem yielded_eq (plan : Plan gen.graph) :
    gen.yielded plan = (novelties (gen.material plan)).take plan.target := by
  rw [yielded, utterances_outcome]

/-- A plan for more utterances than another: it is for the same intent, of the same kind and with
the same seed. -/
structure Extends (fewer more : Plan gen.graph) : Prop where
  intent : fewer.intent = more.intent
  kind : fewer.strategy.SameKind more.strategy
  seed : fewer.seed = more.seed
  target : fewer.target ≤ more.target

variable {fewer more : Plan gen.graph}

/-- Plans of one kind look at one source, and for more they look at least as often. -/
theorem Extends.source (h : Extends fewer more) :
    gen.origin fewer = gen.origin more ∧ gen.looks fewer ≤ gen.looks more := by
  obtain ⟨hintent, hkind, hseed, htarget⟩ := h
  rw [origin, origin, looks, looks, hintent, hseed]
  revert hkind
  generalize fewer.strategy = s, more.strategy = t
  rintro (⟨paths, paths'⟩ | ⟨draws, draws'⟩)
  · exact ⟨rfl, le_rfl⟩
  · exact ⟨rfl, min_le_min_right maxCount (Nat.mul_le_mul_left _ htarget)⟩

theorem Extends.material_isPrefix (h : Extends fewer more) :
    gen.material fewer <+: gen.material more := by
  obtain ⟨horigin, hlooks⟩ := h.source
  rw [material, material, h.intent, horigin]
  exact pulled_isPrefix _ hlooks _

/-- **A plan for more utterances** yields those of the other first. -/
theorem Extends.yielded_isPrefix (h : Extends fewer more) :
    gen.yielded fewer <+: gen.yielded more := by
  rw [yielded_eq, yielded_eq]
  exact take_isPrefix_take (novelties_isPrefix h.material_isPrefix) h.target

/-! ### Requests -/

theorem target_chooseStrategy_samples (ceiling : Nat) (paths : Cardinality) (n : Nat) :
    (chooseStrategy ceiling paths (.samples n)).2.1 = n := by
  rw [chooseStrategy]
  split <;> rfl

/-- A request for more is planned for more, unless the header of the intent decides. -/
theorem target_planAt_le (gen : Generator) (intent : Fin gen.graph.size) (name : String)
    (own : Option (Amount × Nat)) {n m : Nat} (hnm : n ≤ m) (fraction fraction' : Option Float) :
    (gen.planAt intent name own ⟨.samples n, fraction⟩).target
      ≤ (gen.planAt intent name own ⟨.samples m, fraction'⟩).target := by
  simp only [planAt]
  rcases own with _ | ⟨amount, test⟩
  · simp only [Option.map_none, Option.getD_none, target_chooseStrategy_samples]
    exact hnm
  · exact le_rfl

end Generator

/-! ### The theorem -/

/-- **Asking for more only appends.**  An intent has a plan for any number of utterances, unless
the sum in its header does not fit and the program stops.  If the plans for two numbers are of the
same kind, then what is yielded for the smaller one comes first of what is yielded for the larger,
whatever fraction each request keeps for testing.  So it is with one plan, of whatever origin, if
its target is lowered. -/
theorem more_only_appends {gen : Generator} {name : String} {intent : Fin gen.graph.size}
    (hintent : gen.graph.intent? name = some intent) {n m : Nat} (hnm : n ≤ m)
    (fraction fraction' : Option Float) :
    ((gen.graph.node intent).QuotasFit → ∃ fewer more,
      gen.plan name ⟨.samples n, fraction⟩ = .ok fewer ∧
      gen.plan name ⟨.samples m, fraction'⟩ = .ok more ∧
      (fewer.strategy.SameKind more.strategy → gen.yielded fewer <+: gen.yielded more)) ∧
    (¬ (gen.graph.node intent).QuotasFit → ∀ request,
      gen.plan name request = .error (.panic .addition)) ∧
    ∀ plan : Plan gen.graph, plan.target = m → ∀ split,
      gen.yielded { plan with target := n, split } <+: gen.yielded plan := by
  refine ⟨?_, plan_of_not_fits hintent, ?_⟩
  · intro hfits
    obtain ⟨own, hown⟩ := Node.exists_ownAmount? hfits
    refine ⟨gen.planAt intent name own ⟨.samples n, fraction⟩,
      gen.planAt intent name own ⟨.samples m, fraction'⟩,
      plan_eq_ok_iff.mpr ⟨intent, own, hintent, hown, rfl⟩,
      plan_eq_ok_iff.mpr ⟨intent, own, hintent, hown, rfl⟩, fun hkind => ?_⟩
    exact Generator.Extends.yielded_isPrefix
      ⟨rfl, hkind, rfl, Generator.target_planAt_le gen intent name own hnm fraction fraction'⟩
  · rintro plan rfl split
    exact Generator.Extends.yielded_isPrefix ⟨rfl, .refl plan.strategy, rfl, hnm⟩

/-- What is drawn for an order is one of the orders. -/
theorem exists_mem_drinkOrders (source : ChaCha12.Generator) : ∃ u ∈ drinkOrders, ∃ source',
    (Generator.drinks.graph.drawUtterance Generator.drinks.settings (0 : Fin 4)).run source
      = some (u, source') := by
  have hg : Generator.drinks.graph.Valid := valid_of_build build_drinks
  have hcount : Generator.drinks.graph.count (0 : Fin 4) = .finite 3 := by decide +kernel
  obtain ⟨hv, hcard⟩ := few_of_count_eq hg hcount (by decide)
  obtain ⟨ds, -, -, hall, -, hpulled⟩ := exists_pulled_eq hg hv
  obtain ⟨u, source', hrun, d, rfl, -⟩ :=
    hg.yields_drawUtterance Generator.drinks.settings (0 : Fin 4) source
  have horders : pulled (Generator.drinks.pull? (0 : Fin 4)) 3 (.path 0) = drinkOrders := by
    decide +kernel
  rw [hcard] at hpulled
  rw [← horders, hpulled]
  exact ⟨_, List.mem_map_of_mem (hall d), source', hrun⟩

/-- A plan for one utterance yields the first draw, if it looks for it at all. -/
theorem Generator.yielded_of_drawUtterance {gen : Generator} {plan : Plan gen.graph}
    {draws looks : Nat} (hstrategy : plan.strategy = .sampled draws) (htarget : plan.target = 1)
    (hlooks : gen.looks plan = looks + 1) {u : Utterance} {source : ChaCha12.Generator}
    (hrun : (gen.graph.drawUtterance gen.settings plan.intent).run
      (ChaCha12.Generator.ofSeed plan.seed) = some (u, source)) :
    gen.yielded plan = [u] := by
  rw [Generator.yielded_eq, Generator.material, hlooks, Generator.origin, hstrategy, htarget]
  simp only [pulled, pull?_draw hrun, novelties_cons, List.take_succ_cons, List.take_zero]

/-- One order for a drink is drawn, or two are, half of them perhaps for testing, and then the first
is the same.  Where the seed for the intent is known, so are the orders. -/
theorem more_of_drinks : Generator.drinks.graph.intent? "order" = some (0 : Fin 4) ∧
    (∃ fewer more, Generator.drinks.plan "order" ⟨.samples 1, none⟩ = .ok fewer ∧
      Generator.drinks.plan "order" ⟨.samples 2, some 0.5⟩ = .ok more ∧
      fewer.strategy = .sampled 1 ∧ more.strategy = .sampled 2 ∧
      ∃ u ∈ drinkOrders, Generator.drinks.yielded fewer = [u] ∧
        [u] <+: Generator.drinks.yielded more) ∧
    ∃ plan : Plan Generator.drinks.graph, plan.strategy = .sampled 2 ∧ plan.target = 2 ∧
      Generator.drinks.yielded { plan with target := 1 } = [
        [.word "bring", .word "me", .entity "drink" "black coffee" (some "coffee")]] ∧
      Generator.drinks.yielded plan = [
        [.word "bring", .word "me", .entity "drink" "black coffee" (some "coffee")],
        [.word "bring", .word "me", .entity "drink" "coffee" (some "coffee")]] := by
  have hintent : Generator.drinks.graph.intent? "order" = some (0 : Fin 4) := rfl
  obtain ⟨hrequests, -, hlowered⟩ :=
    more_only_appends hintent (n := 1) (m := 2) (by decide) none (some 0.5)
  refine ⟨hintent, ?_, ?_⟩
  · have hfits : (Generator.drinks.graph.node (0 : Fin 4)).QuotasFit := by decide
    obtain ⟨fewer, more, hfewer, hmore, hprefix⟩ := hrequests hfits
    obtain rfl : Generator.drinks.planAt (0 : Fin 4) "order" none ⟨.samples 1, none⟩ = fewer :=
      Except.ok.inj hfewer
    obtain rfl : Generator.drinks.planAt (0 : Fin 4) "order" none ⟨.samples 2, some 0.5⟩ = more :=
      Except.ok.inj hmore
    have hone : (Generator.drinks.planAt (0 : Fin 4) "order" none ⟨.samples 1, none⟩).strategy
        = .sampled 1 := by decide +kernel
    have htwo : (Generator.drinks.planAt (0 : Fin 4) "order" none ⟨.samples 2, some 0.5⟩).strategy
        = .sampled 2 := by decide +kernel
    have hlooks : Generator.drinks.looks
        (Generator.drinks.planAt (0 : Fin 4) "order" none ⟨.samples 1, none⟩) = 1 + 1 := by
      decide +kernel
    rw [hone, htwo] at hprefix
    obtain ⟨u, hu, source, hrun⟩ := exists_mem_drinkOrders (.ofSeed (intentSeed 7 "order"))
    have hyielded := Generator.yielded_of_drawUtterance hone (by decide +kernel) hlooks hrun
    exact ⟨_, _, rfl, rfl, hone, htwo, u, hu, hyielded, hyielded ▸ hprefix (.sampled 1 2)⟩
  · let plan : Plan Generator.drinks.graph :=
      { Plan.drinks with strategy := .sampled 2, target := 2, seed := 1 }
    have hprefix := hlowered plan rfl plan.split
    have hmore : Generator.drinks.yielded plan = [
        [.word "bring", .word "me", .entity "drink" "black coffee" (some "coffee")],
        [.word "bring", .word "me", .entity "drink" "coffee" (some "coffee")]] := by
      rw [Generator.yielded_eq]
      decide +kernel
    have hfewer : Generator.drinks.yielded { plan with target := 1 } = [
        [.word "bring", .word "me", .entity "drink" "black coffee" (some "coffee")]] := by
      rw [Generator.yielded_eq]
      decide +kernel
    exact ⟨plan, rfl, rfl, hfewer, hmore⟩

end IntentGrammar
