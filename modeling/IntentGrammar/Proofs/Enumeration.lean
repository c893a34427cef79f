import IntentGrammar.Proofs.Decoding
import IntentGrammar.Proofs.Plans
import IntentGrammar.Stream

/-!
# The enumeration lists all derivations

An intent is enumerated if it has no more expansions than a limit that fits into 64 bits, which is
far below the largest number that is counted (`few_of_strategy`).  So expanding by number is exact:
the enumeration yields what the derivations of the intent say, each once, in the order of the
grammar (`enumeration_lists_derivations`).
-/

namespace IntentGrammar

open Relation

variable {n : Nat}

/-! ### Plans that enumerate -/

/-- What is enumerated for an amount has no more expansions than this. -/
def Amount.limit (ceiling : Nat) : Amount → Nat
  | .all => ceiling
  | .samples n => n

/-- The numbers that a run is given fit into 64 bits. -/
structure Generator.Fits (gen : Generator) (request : Request) : Prop where
  ceiling : gen.settings.exhaustiveCeiling ≤ maxCount
  samples (n : Nat) : request.amount = .samples n → n ≤ maxCount

theorem of_chooseStrategy_eq_exhaustive {ceiling paths : Nat} {count : Cardinality}
    {amount : Amount} (h : (chooseStrategy ceiling count amount).1 = .exhaustive paths) :
    count = .finite paths ∧ paths ≤ amount.limit ceiling := by
  have hfilter : ∀ limit, count.finite?.filter (· ≤ limit) = some paths →
      count = .finite paths ∧ paths ≤ limit := by
    intro limit hsome
    obtain ⟨hfinite, hle⟩ := Option.filter_eq_some_iff.mp hsome
    rcases count with k | _
    · exact ⟨congrArg _ (Option.some.inj hfinite), by simpa using hle⟩
    · cases hfinite
  cases amount with
  | all =>
    rw [chooseStrategy] at h
    split at h
    · next k hk =>
      cases h
      exact hfilter ceiling hk
    · cases h
  | samples n =>
    rw [chooseStrategy] at h
    split at h
    · next k hk =>
      cases h
      exact hfilter n hk
    · cases h

/-- A header asks for no more utterances than fit into 64 bits. -/
theorem limit_ownAmount?_le {v : Node n} {amount : Amount} {test ceiling : Nat}
    (h : v.ownAmount? = .ok (some (amount, test))) : amount.limit ceiling ≤ maxCount := by
  have hfits := Node.quotasFit_of_ownAmount? h
  rw [Node.ownAmount?_eq, checked_of_le hfits] at h
  split at h
  · cases h
    exact hfits
  · cases h

/-- What a count below the largest number says is exact. -/
theorem few_of_count_eq {g : Graph} (hg : g.Valid) {v : Fin g.size} {paths : Nat}
    (hcount : g.count v = .finite paths) (hlt : paths < Cardinality.cap) :
    g.network.Few v ∧ Nat.card (Derivation g.network v) = paths := by
  rw [hg.count_eq] at hcount
  have hloops : ¬ g.network.Loops v := by
    intro hloops
    rw [expansions_of_loops hloops] at hcount
    cases hcount
  rw [expansions_of_not_loops hloops] at hcount
  have hmin := Cardinality.finite.inj hcount
  have hcard : Nat.card (Derivation g.network v) = paths := by omega
  exact ⟨⟨hloops, hcard ▸ hlt⟩, hcard⟩

/-- An intent that is enumerated has few derivations, as many as the plan says. -/
theorem few_of_strategy {gen : Generator} (hg : gen.graph.Valid) {name : String}
    {request : Request} (hfits : gen.Fits request) {plan : Plan gen.graph} {paths : Nat}
    (hplan : gen.plan name request = .ok plan) (hstrategy : plan.strategy = .exhaustive paths) :
    gen.graph.network.Few plan.intent ∧
      Nat.card (Derivation gen.graph.network plan.intent) = paths := by
  obtain ⟨intent, own, -, hown, rfl⟩ := plan_eq_ok_iff.mp hplan
  obtain ⟨hcount, hle⟩ := of_chooseStrategy_eq_exhaustive hstrategy
  have hlimit : paths ≤ maxCount := by
    -- the limit comes from the header if it sets one, else from the request or the settings
    refine hle.trans ?_
    rcases own with _ | ⟨amount, test⟩
    · rcases hamount : request.amount with _ | k
      · exact hfits.ceiling
      · exact hfits.samples k hamount
    · exact limit_ownAmount?_le hown
  exact few_of_count_eq hg hcount (hlimit.trans_lt (by decide))

/-! ### Streams of all derivations -/

/-- What a source yields when it is looked at `left` times, or until it yields nothing. -/
def pulled (pull? : Position → Option (Utterance × Position)) : Nat → Position → List Utterance
  | 0, _ => []
  | left + 1, position =>
    match pull? position with
    | none => []
    | some (u, position) => u :: pulled pull? left position

/-- To look at an enumeration again and again yields the utterances with consecutive numbers. -/
theorem pulled_path {gen : Generator} {v : Fin gen.graph.size} {left first : Nat}
    {us : Fin left → Utterance}
    (h : ∀ k, gen.graph.utteranceAt? v (first + k.val) = some (us k)) :
    pulled (gen.pull? v) left (.path first) = List.ofFn us := by
  induction left generalizing first with
  | zero => rfl
  | succ left ih =>
    have hpull : gen.pull? v (.path first) = some (us 0, .path (first + 1)) := by
      rw [Generator.pull?]
      have hzero := h 0
      rw [Fin.val_zero, Nat.add_zero] at hzero
      rw [hzero]
      rfl
    have hrest : ∀ k : Fin left,
        gen.graph.utteranceAt? v (first + 1 + k.val) = some (us k.succ) := by
      intro k
      rw [Nat.add_assoc, Nat.add_comm 1]
      exact h k.succ
    rw [pulled, hpull, List.ofFn_succ]
    exact congrArg _ (ih hrest)

/-- To look at an enumeration as often as there are derivations yields what they say, each once and
in the order of the grammar. -/
theorem exists_pulled_eq {gen : Generator} (hg : gen.graph.Valid) {v : Fin gen.graph.size}
    (hv : gen.graph.network.Few v) :
    ∃ ds : List (Derivation gen.graph.network v),
      ds.length = Nat.card (Derivation gen.graph.network v) ∧ ds.Nodup ∧ (∀ d, d ∈ ds) ∧
      ds.Pairwise Derivation.Before ∧
      pulled (gen.pull? v) (Nat.card (Derivation gen.graph.network v)) (.path 0)
        = ds.map Derivation.tokens := by
  obtain ⟨ds, hnumber, hall, hbefore⟩ := exists_derivations_in_order hv.1
  refine ⟨List.ofFn ds, List.length_ofFn, ?_, fun d => List.mem_ofFn.mpr (hall d), hbefore, ?_⟩
  · refine hbefore.imp fun {d e} h heq => ?_
    subst heq
    exact Derivation.not_before_self hv.1 d h
  · rw [List.map_ofFn]
    refine pulled_path fun k => ?_
    rw [Nat.zero_add, ← hnumber k]
    exact hg.utteranceAt?_number hv (ds k)

/-- **An intent that is enumerated** yields what its derivations say, each derivation once and in
the order of the grammar, and no number that is called for on the way is without a sentence. -/
theorem enumeration_lists_derivations {grammar : Grammar} {ceiling : Nat} {gen : Generator}
    (hbuild : Graph.build grammar ceiling = .ok gen.graph) {name : String} {request : Request}
    (hfits : gen.Fits request) {plan : Plan gen.graph} {paths : Nat}
    (hplan : gen.plan name request = .ok plan) (hstrategy : plan.strategy = .exhaustive paths)
    (split : Split) :
    ∃ ds : List (Derivation gen.graph.network plan.intent),
      ds.length = paths ∧ ds.Nodup ∧ (∀ d, d ∈ ds) ∧ ds.Pairwise Derivation.Before ∧
      pulled (gen.pull? plan.intent) (gen.start plan split).left (gen.start plan split).position
        = ds.map Derivation.tokens ∧
      ∀ k < paths, ∀ w j,
        ReflTransGen gen.graph.Calls (plan.intent, k) (w, j) → gen.graph.Finds w j := by
  have hg := valid_of_build hbuild
  obtain ⟨hv, hcard⟩ := few_of_strategy hg hfits hplan hstrategy
  obtain ⟨ds, hlength, hnodup, hall, hbefore, hpulled⟩ := exists_pulled_eq hg hv
  have hstart : gen.start plan split = { gen.start plan split with
      position := .path 0, left := Nat.card (Derivation gen.graph.network plan.intent) } := by
    rw [Generator.start, hstrategy, hg.toNat_count hv]
  refine ⟨ds, hlength.trans hcard, hnodup, hall, hbefore, ?_, fun k hk w j h => ?_⟩
  · rw [hstart]
    exact hpulled
  · exact hg.finds_of_calls hv (hcard ▸ hk) h

/-- A generator for the orders for a drink.  If they are sampled, it draws twice for each. -/
def Generator.drinks : Generator := ⟨.drinks, { attemptsPerExample := 2 }, 7⟩

/-- The plan for the orders. -/
def Plan.drinks : Plan Generator.drinks.graph :=
  Generator.drinks.planAt ⟨0, by decide⟩ "order" none {}

/-- The orders for a drink: of tea, and of coffee in the two ways that its alias can be worded. -/
def drinkOrders : List Utterance := [
  [.word "bring", .word "me", .entity "drink" "tea" none],
  [.word "bring", .word "me", .entity "drink" "black coffee" (some "coffee")],
  [.word "bring", .word "me", .entity "drink" "coffee" (some "coffee")]]

/-- The three orders for a drink are enumerated. -/
theorem enumeration_of_drinks :
    Graph.build .drinks 10000 = .ok Generator.drinks.graph ∧ Generator.drinks.Fits {} ∧
      Generator.drinks.plan "order" {} = .ok Plan.drinks ∧
      Plan.drinks.strategy = .exhaustive 3 ∧
      ∃ ds : List (Derivation Generator.drinks.graph.network Plan.drinks.intent),
        ds.length = 3 ∧ (∀ d, d ∈ ds) ∧ ds.map Derivation.tokens = drinkOrders ∧
        pulled (Generator.drinks.pull? Plan.drinks.intent)
          (Generator.drinks.start Plan.drinks Plan.drinks.split).left
          (Generator.drinks.start Plan.drinks Plan.drinks.split).position = drinkOrders := by
  have hceiling : 10000 ≤ maxCount := by decide
  have hfits : Generator.drinks.Fits {} := ⟨hceiling, nofun⟩
  have hplan : Generator.drinks.plan "order" {} = .ok Plan.drinks := rfl
  have hstrategy : Plan.drinks.strategy = .exhaustive 3 := by decide +kernel
  have horders : pulled (Generator.drinks.pull? Plan.drinks.intent)
      (Generator.drinks.start Plan.drinks Plan.drinks.split).left
      (Generator.drinks.start Plan.drinks Plan.drinks.split).position = drinkOrders := by
    decide +kernel
  obtain ⟨ds, hlength, -, hall, -, hpulled, -⟩ :=
    enumeration_lists_derivations build_drinks hfits hplan hstrategy Plan.drinks.split
  exact ⟨build_drinks, hfits, hplan, hstrategy, ds, hlength, hall, hpulled.symm.trans horders,
    horders⟩

end IntentGrammar
