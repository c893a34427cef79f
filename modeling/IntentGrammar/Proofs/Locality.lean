import IntentGrammar.Proofs.Agreement
import IntentGrammar.Proofs.Shares

/-!
# The output of an intent depends on what it reaches

Two grammars that agree from an intent on are alike on all that the generation of this intent looks
at: its header and its count decide the plan, and the source of the plan goes through definitions
that are reached from it.  So generators with the same settings and the same seed make the same of
the intent (`Generator.Concur`), whatever else the grammars define, and in whatever order.

The sources need not be the same everywhere.  An intent that leads to a circle is never enumerated,
and its expansions by number are not compared.
-/

namespace IntentGrammar

open Relation

/-! ### Sources that go the same way -/

section Sources

variable {pull? pull?' : Position → Option (Utterance × Position)} {I : Position → Prop}

/-- The sources are the same at all positions that are in `I`, and from there lead to positions
in `I`. -/
structure SameSource (pull? pull?' : Position → Option (Utterance × Position))
    (I : Position → Prop) : Prop where
  pull (position : Position) : I position → pull? position = pull?' position
  stays (position : Position) (u : Utterance) (position' : Position) :
    I position → pull? position = some (u, position') → I position'

/-- A search finds the same and ends at a position in `I`. -/
theorem SameSource.seek (h : SameSource pull? pull?' I) (s : Stream) (left : Nat)
    {position : Position} (hposition : I position) (c : Cancellation) :
    s.seek pull? left position c = s.seek pull?' left position c ∧
      I (s.seek pull? left position c).2.1.position := by
  induction left generalizing position c with
  | zero =>
    rw [Stream.seek, Stream.seek]
    rcases c.check with ⟨_ | _, c⟩
    · exact ⟨rfl, hposition⟩
    · exact ⟨rfl, hposition⟩
  | succ left ih =>
    -- whether there is one more look is up to `c`, which both ask, and the look itself is the same
    rw [Stream.seek, Stream.seek, ← h.pull position hposition]
    rcases c.check with ⟨_ | _, c⟩
    · rcases hpull : pull? position with _ | ⟨u, position'⟩
      · exact ⟨rfl, hposition⟩
      · have hposition' := h.stays position u position' hposition hpull
        simp only
        split
        · exact ih hposition' c
        · exact ⟨rfl, hposition'⟩
    · exact ⟨rfl, hposition⟩

theorem SameSource.next (h : SameSource pull? pull?' I) {s : Stream} (hs : I s.position)
    (c : Cancellation) :
    s.next pull? c = s.next pull?' c ∧ I (s.next pull? c).2.1.position := by
  rw [Stream.next, Stream.next]
  split
  · exact ⟨rfl, hs⟩
  · exact h.seek s s.left hs c

/-- **A run yields the same** from sources that go the same way. -/
theorem SameSource.take (h : SameSource pull? pull?' I) (n : Nat) {s : Stream}
    (hs : I s.position) (c : Cancellation) : s.take pull? n c = s.take pull?' n c := by
  induction n generalizing s c with
  | zero => rfl
  | succ n ih =>
    obtain ⟨hsame, hposition⟩ := h.next hs c
    rw [Stream.take, Stream.take, ← hsame]
    rcases hnext : s.next pull? c with ⟨_ | x, s', c'⟩
    · rfl
    · rw [hnext] at hposition
      simp only [ih hposition c']

end Sources

/-! ### Generators for graphs that are alike -/

/-- Two plans say the same about the same intent, each for its own graph. -/
structure Plan.Matches {g g' : Graph} (plan : Plan g) (plan' : Plan g') : Prop where
  key : (g.node plan.intent).key = (g'.node plan'.intent).key
  name : plan.name = plan'.name
  strategy : plan.strategy = plan'.strategy
  target : plan.target = plan'.target
  requested : plan.requested = plan'.requested
  split : plan.split = plan'.split
  seed : plan.seed = plan'.seed

namespace Generator

/-- Two generators have matching plans for an intent, whatever is requested, and the plans come to
the same: the same utterances with the same labels, whether and whenever they are cancelled.  If the
sum in the header of the intent does not fit, then it does so for neither, and both stop. -/
def Concur (gen gen' : Generator) (name : String) : Prop :=
  ∃ v w, gen.graph.intent? name = some v ∧ gen'.graph.intent? name = some w ∧
    ((gen.graph.node v).QuotasFit ↔ (gen'.graph.node w).QuotasFit) ∧
    ((gen.graph.node v).QuotasFit → ∀ request, ∃ plan plan',
      gen.plan name request = .ok plan ∧ gen'.plan name request = .ok plan' ∧
      plan.Matches plan' ∧ ∀ c, gen.outcome plan c = gen'.outcome plan' c) ∧
    (¬ (gen.graph.node v).QuotasFit → ∀ request,
      gen.plan name request = .error (.panic .addition) ∧
      gen'.plan name request = .error (.panic .addition))

theorem ownAmount?_of_alike {n m : Nat} {R : Fin n → Fin m → Prop} {v : Node n} {w : Node m}
    (h : Node.Alike R v w) : v.ownAmount? = w.ownAmount? := by
  simp only [Node.ownAmount?, h.arguments]

theorem quotasFit_of_alike {n m : Nat} {R : Fin n → Fin m → Prop} {v : Node n} {w : Node m}
    (h : Node.Alike R v w) : v.QuotasFit ↔ w.QuotasFit := by
  rw [Node.quotasFit_iff, Node.quotasFit_iff, ownAmount?_of_alike h]

section Alike

variable {gen gen' : Generator} {R : Fin gen.graph.size → Fin gen'.graph.size → Prop}
  {v : Fin gen.graph.size} {w : Fin gen'.graph.size}

/-- Intents that correspond are planned in the same way. -/
theorem matches_planAt (h : Graph.Alike R) (hsettings : gen.settings = gen'.settings)
    (hseed : gen.seed = gen'.seed) (hR : R v w) (name : String) (own : Option (Amount × Nat))
    (request : Request) :
    (gen.planAt v name own request).Matches (gen'.planAt w name own request) := by
  have hcount := h.count_eq hR
  constructor
  · exact h.key_eq hR
  · rfl
  all_goals simp only [planAt, hcount, hsettings, hseed]

/-- The source of an intent can be compared at a position: anywhere if no circle is ahead, and
otherwise where it draws. -/
def Comparable (gen : Generator) (v : Fin gen.graph.size) : Position → Prop
  | .path _ => ¬ gen.graph.network.Loops v
  | .draw _ => True

/-- The sources of intents that correspond go the same way. -/
theorem sameSource_pull? (h : Graph.Alike R) (hsettings : gen.settings = gen'.settings)
    (hR : R v w) : SameSource (gen.pull? v) (gen'.pull? w) (gen.Comparable v) where
  pull
    | .path index, hv => by rw [pull?, pull?, h.utteranceAt?_eq hR hv]
    | .draw source, _ => by rw [pull?, pull?, h.drawUtterance_eq hR, hsettings]
  stays
    | .path index, u, position', hv, hpull => by
      obtain ⟨_, -, heq⟩ := Option.map_eq_some_iff.mp hpull
      cases heq
      exact hv
    | .draw source, u, position', _, hpull => by
      obtain ⟨⟨_, _⟩, -, heq⟩ := Option.map_eq_some_iff.mp hpull
      cases heq
      trivial

/-- What is enumerated leads to no circle. -/
theorem comparable_start (hg : gen.graph.Valid) (v : Fin gen.graph.size) (name : String)
    (own : Option (Amount × Nat)) (request : Request) (split : Split) :
    gen.Comparable v (gen.start (gen.planAt v name own request) split).position := by
  rw [start]
  rcases hstrategy : (gen.planAt v name own request).strategy with paths | draws
  · obtain ⟨hcount, -⟩ := of_chooseStrategy_eq_exhaustive hstrategy
    intro hloops
    rw [hg.count_eq, expansions_of_loops hloops] at hcount
    cases hcount
  · trivial

variable {plan : Plan gen.graph} {plan' : Plan gen'.graph}

theorem start_eq (h : Graph.Alike R) (hsettings : gen.settings = gen'.settings)
    (hmatches : plan.Matches plan') (hR : R plan.intent plan'.intent) (split : Split) :
    gen.start plan split = gen'.start plan' split := by
  rw [start, start, hmatches.strategy, hmatches.target, hmatches.seed, hsettings, h.count_eq hR]

/-- Plans for intents that correspond come to the same. -/
theorem outcome_planAt_eq (h : Graph.Alike R) (hsettings : gen.settings = gen'.settings)
    (hseed : gen.seed = gen'.seed) (hR : R v w) (name : String) (own : Option (Amount × Nat))
    (request : Request) (c : Cancellation) :
    gen.outcome (gen.planAt v name own request) c
      = gen'.outcome (gen'.planAt w name own request) c := by
  -- from here on only what the plans say is used, not how they were made
  have hmatches := matches_planAt h hsettings hseed hR name own request
  have hcomparable := comparable_start h.valid v name own request
  generalize hplan : gen.planAt v name own request = plan at hmatches hcomparable
  generalize hplan' : gen'.planAt w name own request = plan' at hmatches
  obtain rfl : plan.intent = v := congrArg Plan.intent hplan.symm
  obtain rfl : plan'.intent = w := congrArg Plan.intent hplan'.symm
  have hstart := start_eq h hsettings hmatches hR
  have hrest (split : Split) (c : Cancellation) :
      gen.rest plan (gen.start plan split) c = gen'.rest plan' (gen'.start plan' split) c := by
    rw [rest, rest, ← hstart]
    exact (sameSource_pull? h hsettings hR).take _ (hcomparable split) c
  have hfit : gen.fitSplit plan c = gen'.fitSplit plan' c := by
    rw [fitSplit, fitSplit, hmatches.split, hmatches.target, hrest]
  rw [outcome, outcome, stream, stream, hfit]
  exact hrest _ _

end Alike

/-- **Generators for grammars that agree** from an intent on concur. -/
theorem concur_of_agrees {G G' : Grammar} {ceiling : Nat} {gen gen' : Generator}
    (hG : G.Distinct) (hG' : G'.Distinct) (hbuild : Graph.build G ceiling = .ok gen.graph)
    (hbuild' : Graph.build G' ceiling = .ok gen'.graph) (hsettings : gen.settings = gen'.settings)
    (hseed : gen.seed = gen'.seed) {name : String} (h : G.Agrees G' ⟨.intent, name, none⟩) :
    gen.Concur gen' name := by
  have halike := alike_of_agrees hG hG' hbuild hbuild' h
  obtain ⟨d, hd, d', hd', hkey, hsame⟩ := h _ .refl
  obtain ⟨v, hv, hvkey⟩ := exists_find? hbuild ⟨d, hd, hkey⟩
  obtain ⟨w, hw, hwkey⟩ := exists_find? hbuild' ⟨d', hd', hsame.key.symm.trans hkey⟩
  have hR : Counterpart G ⟨.intent, name, none⟩ gen.graph.network gen'.graph.network v w := by
    refine ⟨?_, hvkey.trans hwkey.symm⟩
    have hself : (gen.graph.network.get v).key = ⟨.intent, name, none⟩ := hvkey
    rw [hself]
  have hnode := halike.network.nodes v w hR
  have hfit : (gen.graph.node v).QuotasFit ↔ (gen'.graph.node w).QuotasFit :=
    quotasFit_of_alike hnode
  refine ⟨v, w, hv, hw, hfit, ?_, ?_⟩
  · intro hfits request
    obtain ⟨own, hown⟩ := Node.exists_ownAmount? hfits
    have hown' : (gen'.graph.node w).ownAmount? = .ok own :=
      (ownAmount?_of_alike hnode).symm.trans hown
    exact ⟨_, _, plan_eq_ok_iff.mpr ⟨v, own, hv, hown, rfl⟩,
      plan_eq_ok_iff.mpr ⟨w, own, hw, hown', rfl⟩,
      matches_planAt halike hsettings hseed hR name own request,
      outcome_planAt_eq halike hsettings hseed hR name own request⟩
  · intro hexcess request
    exact ⟨plan_of_not_fits hv hexcess request,
      plan_of_not_fits hw (fun hfits => hexcess (hfit.mpr hfits)) request⟩

end Generator

/-! ### The theorem -/

/-- The same orders for a drink, with the definitions the other way round. -/
def Grammar.drinksReversed : Grammar where
  source := ""
  definitions := Grammar.drinks.definitions.reverse

theorem distinct_drinksReversed : Grammar.drinksReversed.Distinct := by
  rw [Grammar.Distinct]
  decide

theorem exists_build_drinksReversed :
    ∃ graph, Graph.build .drinksReversed 10000 = .ok graph := by
  have hpass := (exists_build_iff_passes distinct_drinks 10000).mp ⟨_, build_drinks⟩
  have hperm : Grammar.drinks.definitions.Perm Grammar.drinksReversed.definitions :=
    (List.reverse_perm _).symm
  refine (exists_build_iff_passes distinct_drinksReversed 10000).mpr ?_
  intro check
  exact (hpass check).of_perm hperm

/-- **The output of an intent depends only on what it reaches.**  Let two grammars that have graphs
agree on an intent and on all that is reached from it.  Then generators with the same settings and
the same seed have matching plans for the intent, and these come to the same.  So it is, in
particular, for every intent of both grammars, if one of them has all the definitions of the other,
in whatever order. -/
theorem output_depends_on_reach {G G' : Grammar} {ceiling : Nat} {gen gen' : Generator}
    (hG : G.Distinct) (hG' : G'.Distinct) (hbuild : Graph.build G ceiling = .ok gen.graph)
    (hbuild' : Graph.build G' ceiling = .ok gen'.graph) (hsettings : gen.settings = gen'.settings)
    (hseed : gen.seed = gen'.seed) :
    (∀ name, G.Agrees G' ⟨.intent, name, none⟩ → gen.Concur gen' name) ∧
      (G.definitions ⊆ G'.definitions ∨ G'.definitions ⊆ G.definitions →
        ∀ name, G.Defines ⟨.intent, name, none⟩ → G'.Defines ⟨.intent, name, none⟩ →
          gen.Concur gen' name) := by
  have hconcur (name : String) (h : G.Agrees G' ⟨.intent, name, none⟩) : gen.Concur gen' name :=
    Generator.concur_of_agrees hG hG' hbuild hbuild' hsettings hseed h
  refine ⟨hconcur, ?_⟩
  intro hsub name hdefines hdefines'
  apply hconcur
  rcases hsub with hsub | hsub
  · have hresolved : G.Resolved := (exists_build_iff_passes hG ceiling).mp ⟨_, hbuild⟩ .references
    exact .of_subset hresolved hsub hdefines
  · -- what is said of walks in the smaller grammar holds of walks in the larger one
    have hresolved : G'.Resolved :=
      (exists_build_iff_passes hG' ceiling).mp ⟨_, hbuild'⟩ .references
    exact (Grammar.Agrees.of_subset hresolved hsub hdefines').symm hG

/-- The orders for a drink come to the same if the definitions are turned round, which gives the
intent another number: all three are yielded by either generator. -/
theorem output_of_drinksReversed : ∃ gen' : Generator,
    Graph.build .drinks 10000 = .ok Generator.drinks.graph ∧
      Graph.build .drinksReversed 10000 = .ok gen'.graph ∧
      (lastIndex? Grammar.drinks.definitions ⟨.intent, "order", none⟩).map Fin.val = some 0 ∧
      (lastIndex? Grammar.drinksReversed.definitions ⟨.intent, "order", none⟩).map Fin.val = some 3 ∧
      Grammar.drinks.Agrees .drinksReversed ⟨.intent, "order", none⟩ ∧
      Generator.drinks.Concur gen' "order" ∧
      ∃ plan', gen'.plan "order" {} = .ok plan' ∧
        (Generator.drinks.outcome Plan.drinks .never).1.map (·.2) = drinkOrders ∧
        (gen'.outcome plan' .never).1.map (·.2) = drinkOrders := by
  obtain ⟨graph', hbuild'⟩ := exists_build_drinksReversed
  let gen' : Generator := { Generator.drinks with graph := graph' }
  have hgen : Graph.build .drinks 10000 = .ok Generator.drinks.graph := build_drinks
  have hgen' : Graph.build .drinksReversed 10000 = .ok gen'.graph := hbuild'
  obtain ⟨-, hsame⟩ :=
    output_depends_on_reach distinct_drinks distinct_drinksReversed hgen hgen' rfl rfl
  have hsub : Grammar.drinks.definitions ⊆ Grammar.drinksReversed.definitions :=
    List.subset_reverse.mpr (List.Subset.refl _)
  have hdefines : Grammar.drinks.Defines ⟨.intent, "order", none⟩ :=
    ⟨_, List.mem_cons_self, rfl⟩
  have hdefines' : Grammar.drinksReversed.Defines ⟨.intent, "order", none⟩ := by
    obtain ⟨d, hd, hkey⟩ := hdefines
    exact ⟨d, hsub hd, hkey⟩
  have hagrees : Grammar.drinks.Agrees .drinksReversed ⟨.intent, "order", none⟩ := by
    have hpass := (exists_build_iff_passes distinct_drinks 10000).mp ⟨_, hgen⟩
    exact .of_subset (hpass .references) hsub hdefines
  have horders : (Generator.drinks.outcome Plan.drinks .never).1.map (·.2) = drinkOrders := by
    rw [Generator.utterances_outcome]
    decide +kernel
  -- the plans are for the intent that is found, which has no numbers in its header
  obtain ⟨v, w, hv, -, -, hplans, -⟩ :=
    hsame (.inl hsub) "order" hdefines hdefines'
  obtain rfl : (0 : Fin 4) = v := Option.some.inj hv
  have hfits : (Generator.drinks.graph.node (0 : Fin 4)).QuotasFit := by decide
  obtain ⟨plan, plan', hplan, hplan', -, houtcome⟩ := hplans hfits {}
  obtain rfl : Plan.drinks = plan := Except.ok.inj hplan
  exact ⟨gen', hgen, hgen', by decide, by decide, hagrees,
    hsame (.inl hsub) "order" hdefines hdefines', plan', hplan', horders, houtcome .never ▸ horders⟩

end IntentGrammar
