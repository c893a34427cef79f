import IntentGrammar.Graph.Build
import IntentGrammar.Proofs.Circles
import IntentGrammar.Proofs.Linking
import IntentGrammar.Proofs.Nesting
import IntentGrammar.Proofs.Probabilities
import IntentGrammar.Proofs.Visits

/-!
# Which grammars are accepted

Four checks stand between a grammar and its graph, and `Grammar.Passes` says what each is about in
terms of keys and references alone, without numbers, marks or counts.  A grammar is accepted exactly
if it passes all four, and a grammar that is refused is refused by the first that it does not pass.

What every graph is known to satisfy afterwards is collected in `Graph.Valid`; all that is proved
about graphs starts from there.
-/

namespace IntentGrammar

open Relation

/-! ### The checks -/

/-- What a grammar is checked for, in this order. -/
inductive Check where
  | references
  | weights
  | circles
  | nesting
  deriving DecidableEq, Repr

/-- The place of a check in their order. -/
def Check.rank : Check → Nat
  | references => 0
  | weights => 1
  | circles => 2
  | nesting => 3

/-- The check that an error comes from. -/
def Error.check? : Error → Option Check
  | undefinedReference _ _ | intentReference _ _ => some .references
  | emptyDefinition _ | weightOverflow _ _ => some .weights
  | cyclicDefinition _ => some .circles
  | nestedSlot _ _ => some .nesting
  | _ => none

/-- What a definition needs to have probabilities: a sentence, and weights that do not add up to
more than a hundred. -/
def Definition.Weighed (d : Definition) : Prop :=
  d.alternatives ≠ [] ∧ ¬ (100.0 + 1e-9 : Float) < Weight.sum (d.alternatives.filterMap (·.weight))

/-- What a grammar has to satisfy to pass a check. -/
def Grammar.Passes (g : Grammar) : Check → Prop
  | .references => g.Resolved
  | .weights => ∀ d ∈ g.definitions, d.Weighed
  | .circles => ¬ ∃ k, TransGen g.Requires k k
  | .nesting => ¬ ∃ k l, k.kind = .slot ∧ l.kind = .slot ∧ TransGen g.Refers k l

/-! ### References between numbers and between keys -/

section Transfer

variable {α β : Type*} {R : α → α → Prop} {S : β → β → Prop} {f : α → β}

/-- Walks between elements are walks between their images, where only images are related. -/
theorem transGen_map_iff (hRS : ∀ a b, R a b ↔ S (f a) (f b))
    (hrange : ∀ x y, S x y → ∃ b, f b = y) {a b : α} : TransGen R a b ↔ TransGen S (f a) (f b) := by
  constructor
  · intro h
    exact TransGen.lift f (fun a b => (hRS a b).mp) a b h
  · intro h
    -- what a walk passes is the target of a step, and so an image
    have aux : ∀ y, TransGen S (f a) y → ∀ b, f b = y → TransGen R a b := by
      intro y hy
      induction hy with
      | single hstep =>
        rintro b rfl
        exact TransGen.single ((hRS a b).mpr hstep)
      | tail hwalk hstep ih =>
        rintro b rfl
        obtain ⟨c, rfl⟩ : ∃ c, f c = _ := by
          obtain ⟨x, -, hx⟩ := TransGen.tail'_iff.mp hwalk
          exact hrange x _ hx
        exact (ih c rfl).tail ((hRS c b).mpr hstep)
    exact aux (f b) h b rfl

end Transfer

variable {g : Grammar} {n : Nat} {net : Network n}

namespace Network.Mirrors

theorem map_key (h : net.Mirrors g) :
    net.toList.map (fun v => v.key) = g.definitions.map (·.key) := by
  have hflip : List.Forall₂ (fun k l : Key => k = l) (net.toList.map fun v => v.key)
      (g.definitions.map (·.key)) := by
    rw [List.forall₂_map_left_iff, List.forall₂_map_right_iff]
    exact h.flip.imp fun v d hvd => hvd.key
  rwa [List.forall₂_eq_eq_eq] at hflip

/-- Different definitions have different keys. -/
theorem key_injective (h : net.Mirrors g) (hg : g.Distinct) :
    Function.Injective fun v => (net.get v).key := by
  intro i j hij
  have hnodup : (net.toList.map fun v => v.key).Nodup := h.map_key ▸ hg
  have hget : ∀ k : Fin n, (net.toList.map fun v => v.key).get (k.cast (by simp))
      = (net.get k).key := by
    intro k
    rw [List.get_eq_getElem, List.getElem_map, Vector.get_eq_getElem]
    rfl
  have heq := hnodup.injective_get ((hget i).trans (hij.trans (hget j).symm))
  exact Fin.cast_injective _ heq

/-- References between numbers are references between keys. -/
theorem exists_reference_iff (h : net.Mirrors g) (hg : g.Distinct) {i j : Fin n} {optional : Bool} :
    (∃ c ∈ (net.get i).choices, Step.reference j optional ∈ c.steps) ↔
      ∃ d ∈ g.definitions, d.key = (net.get i).key ∧ ∃ a ∈ d.alternatives, ∃ r,
        Element.reference r ∈ a.elements ∧ r.target = (net.get j).key ∧ r.optional = optional := by
  constructor
  · rintro ⟨c, hc, hs⟩
    obtain ⟨d, hd, hdi⟩ := exists_left_of_forall₂ h (mem_toList_get net i)
    obtain ⟨a, ha, hac⟩ := exists_left_of_forall₂ hdi.choices hc
    obtain ⟨x, hx, hxs⟩ := exists_left_of_forall₂ hac.steps hs
    cases hxs with
    | reference r _ htarget => exact ⟨d, hd, hdi.key.symm, a, ha, r, hx, htarget.symm, rfl⟩
  · rintro ⟨d, hd, hkey, a, ha, r, hr, htarget, rfl⟩
    obtain ⟨v, hv, hdv⟩ := exists_right_of_forall₂ h hd
    obtain ⟨k, rfl⟩ := exists_get_of_mem_toList hv
    obtain rfl : k = i := h.key_injective hg (hdv.key.trans hkey)
    obtain ⟨c, hc, hac⟩ := exists_right_of_forall₂ hdv.choices ha
    obtain ⟨s, hs, hrs⟩ := exists_right_of_forall₂ hac.steps hr
    cases hrs with
    | reference _ target hmirrors =>
      obtain rfl : target = j := h.key_injective hg (hmirrors.trans htarget)
      exact ⟨c, hc, hs⟩

theorem requires_iff (h : net.Mirrors g) (hg : g.Distinct) (i j : Fin n) :
    net.Requires i j ↔ g.Requires (net.get i).key (net.get j).key :=
  h.exists_reference_iff hg

theorem refers_iff (h : net.Mirrors g) (hg : g.Distinct) (i j : Fin n) :
    net.Refers i j ↔ g.Refers (net.get i).key (net.get j).key := by
  constructor
  · rintro ⟨c, hc, optional, hs⟩
    obtain ⟨d, hd, hkey, a, ha, r, hr, htarget, -⟩ := (h.exists_reference_iff hg).mp ⟨c, hc, hs⟩
    exact ⟨d, hd, hkey, a, ha, r, hr, htarget⟩
  · rintro ⟨d, hd, hkey, a, ha, r, hr, htarget⟩
    obtain ⟨c, hc, hs⟩ :=
      (h.exists_reference_iff hg).mpr ⟨d, hd, hkey, a, ha, r, hr, htarget, rfl⟩
    exact ⟨c, hc, r.optional, hs⟩

/-- A definition that is referred to has a number. -/
theorem exists_key_of_refers (h : net.Mirrors g) {k l : Key} (hkl : g.Refers k l) :
    ∃ j, (net.get j).key = l := by
  obtain ⟨d, hd, -, a, ha, r, hr, rfl⟩ := hkl
  obtain ⟨v, -, hdv⟩ := exists_right_of_forall₂ h hd
  obtain ⟨c, -, hac⟩ := exists_right_of_forall₂ hdv.choices ha
  obtain ⟨s, -, hrs⟩ := exists_right_of_forall₂ hac.steps hr
  cases hrs with
  | reference _ target hmirrors => exact ⟨target, hmirrors⟩

/-- A definition that refers to something has a number. -/
theorem exists_key_of_refers_left (h : net.Mirrors g) {k l : Key} (hkl : g.Refers k l) :
    ∃ i, (net.get i).key = k := by
  obtain ⟨d, hd, rfl, -⟩ := hkl
  obtain ⟨v, hv, hdv⟩ := exists_right_of_forall₂ h hd
  obtain ⟨i, rfl⟩ := exists_get_of_mem_toList hv
  exact ⟨i, hdv.key⟩

end Network.Mirrors

theorem Grammar.Requires.refers {k l : Key} (h : g.Requires k l) : g.Refers k l := by
  obtain ⟨d, hd, hkey, a, ha, r, hr, htarget, -⟩ := h
  exact ⟨d, hd, hkey, a, ha, r, hr, htarget⟩

/-- The third check, in terms of numbers. -/
theorem passes_circles_iff (h : net.Mirrors g) (hg : g.Distinct) :
    g.Passes .circles ↔ ∀ v, ¬ TransGen net.Requires v v := by
  have hwalk : ∀ v, TransGen net.Requires v v ↔ TransGen g.Requires (net.get v).key (net.get v).key :=
    fun v => transGen_map_iff (h.requires_iff hg)
      fun _ _ hkl => h.exists_key_of_refers hkl.refers
  constructor
  · intro hpass v hv
    exact hpass ⟨_, (hwalk v).mp hv⟩
  · rintro hnone ⟨k, hk⟩
    obtain ⟨l, hkl, -⟩ := TransGen.head'_iff.mp hk
    obtain ⟨v, rfl⟩ := h.exists_key_of_refers_left hkl.refers
    exact hnone v ((hwalk v).mpr hk)

/-- The fourth check, in terms of numbers. -/
theorem passes_nesting_iff (h : net.Mirrors g) (hg : g.Distinct) :
    g.Passes .nesting ↔ ∀ v w, ¬ net.Nests v w := by
  have hwalk : ∀ v w, TransGen net.Refers v w ↔ TransGen g.Refers (net.get v).key (net.get w).key :=
    fun v w => transGen_map_iff (h.refers_iff hg)
      fun _ _ hkl => h.exists_key_of_refers hkl
  constructor
  · rintro hpass v w ⟨hv, hw, hvw⟩
    exact hpass ⟨_, _, hv, hw, (hwalk v w).mp hvw⟩
  · rintro hnone ⟨k, l, hk, hl, hkl⟩
    obtain ⟨_, hstep, -⟩ := TransGen.head'_iff.mp hkl
    obtain ⟨v, rfl⟩ := h.exists_key_of_refers_left hstep
    obtain ⟨_, -, hstep⟩ := TransGen.tail'_iff.mp hkl
    obtain ⟨w, rfl⟩ := h.exists_key_of_refers hstep
    exact hnone v w ⟨hk, hl, (hwalk v w).mpr hkl⟩

/-! ### Building a graph, stage by stage -/

theorem filterMap_weight_eq {as : List Alternative} {cs : List (Choice n)}
    (h : List.Forall₂ (Choice.Mirrors net) as cs) :
    cs.filterMap (·.weight) = as.filterMap (·.weight) := by
  induction h with
  | nil => rfl
  | cons hac _ ih => rw [List.filterMap_cons, List.filterMap_cons, hac.weight, ih]

section Stages

variable {ceiling : Nat}

/-- The probabilities of all definitions of a network. -/
def Network.probabilities (net : Network n) (ceiling : Nat) :
    Except Error (Vector (List Float) n) :=
  (net.zip net.counts).mapM fun (v, tally) => v.probabilities ceiling tally.sentences

theorem get_zip_counts (net : Network n) (i : Fin n) :
    (net.zip net.counts).get i = (net.get i, net.tally i) := by
  rw [← get_counts, Vector.get_eq_getElem, Vector.getElem_zip]
  rfl

/-- Probabilities can be compared as lists, which decides where an error could not be compared. -/
theorem probabilities_eq_ok {ps : Vector (List Float) n}
    (h : (net.probabilities ceiling).toOption.map Vector.toList = some ps.toList) :
    net.probabilities ceiling = .ok ps := by
  rcases hprobabilities : net.probabilities ceiling with e | qs
  · rw [hprobabilities] at h
    cases h
  · rw [hprobabilities] at h
    exact congrArg _ (Vector.toList_inj.mp (Option.some.inj h))

/-- The probabilities of each definition come from the counts of its sentences. -/
theorem node_probabilities_get {ps : Vector (List Float) n}
    (h : net.probabilities ceiling = .ok ps) (i : Fin n) :
    (net.get i).probabilities ceiling (net.tally i).sentences = .ok (ps.get i) := by
  have hi := vector_mapM_eq_ok_iff_get.mp h i
  rwa [get_zip_counts] at hi

theorem length_sentences_tally (net : Network n) (i : Fin n) :
    (net.tally i).sentences.length = (net.get i).choices.length :=
  List.length_map _

/-- There are probabilities for every definition that has them. -/
theorem exists_probabilities_iff_get :
    (∃ ps, net.probabilities ceiling = .ok ps) ↔
      ∀ i, ∃ ps, (net.get i).probabilities ceiling (net.tally i).sentences = .ok ps := by
  simp only [Network.probabilities, vector_mapM_eq_ok_iff_get, get_zip_counts]
  constructor
  · rintro ⟨ps, h⟩ i
    exact ⟨_, h i⟩
  · intro h
    choose ps hps using h
    refine ⟨Vector.ofFn ps, fun i => ?_⟩
    rw [hps, Vector.get_eq_getElem, Vector.getElem_ofFn]

/-- The sentences of a definition have probabilities if those in the grammar are weighed. -/
theorem exists_probabilities_iff_weights (h : net.Mirrors g) :
    (∃ ps, net.probabilities ceiling = .ok ps) ↔ g.Passes .weights := by
  have hdef : ∀ d i, Node.Mirrors net d (net.get i) →
      ((∃ ps, (net.get i).probabilities ceiling (net.tally i).sentences = .ok ps) ↔
        d.Weighed) := by
    intro d i hdi
    rw [exists_node_probabilities_iff (length_sentences_tally net i), Definition.Weighed]
    have hnil : (net.get i).choices = [] ↔ d.alternatives = [] := by
      rw [← List.length_eq_zero_iff, ← List.length_eq_zero_iff, hdi.choices.length_eq]
    have hweights : (net.get i).choices.filterMap (·.weight)
        = d.alternatives.filterMap (·.weight) := filterMap_weight_eq hdi.choices
    rw [Ne, hnil, hweights]
  rw [exists_probabilities_iff_get]
  constructor
  · intro hall d hd
    obtain ⟨v, hv, hdv⟩ := exists_right_of_forall₂ h hd
    obtain ⟨i, rfl⟩ := exists_get_of_mem_toList hv
    exact (hdef d i hdv).mp (hall i)
  · intro hpass i
    obtain ⟨d, hd, hdi⟩ := exists_left_of_forall₂ h (mem_toList_get net i)
    exact (hdef d i hdi).mpr (hpass d hd)

/-- The checks for circles and nested slots find what they look for, circles first. -/
theorem check_eq_ok_iff : net.check = .ok () ↔
    (∀ v, ¬ TransGen net.Requires v v) ∧ ∀ v w, ¬ net.Nests v w := by
  rw [← Network.circle?_eq_none_iff, ← Network.nestedSlots?_eq_none_iff, Network.check]
  rcases net.circle? with _ | circle
  · rcases net.nestedSlots? with _ | ⟨slot, nested⟩
    · exact ⟨fun _ => ⟨rfl, rfl⟩, fun _ => rfl⟩
    · exact ⟨nofun, nofun⟩
  · exact ⟨nofun, nofun⟩

theorem of_check_eq_error {e : Error} (h : net.check = .error e) :
    (∃ circle, e = .cyclicDefinition circle) ∧ (∃ v, TransGen net.Requires v v) ∨
      (∃ slot nested, e = .nestedSlot slot nested) ∧ (∀ v, ¬ TransGen net.Requires v v) ∧
        ∃ v w, net.Nests v w := by
  rw [Network.check] at h
  rcases hcircle : net.circle? with _ | circle
  · rw [hcircle] at h
    rcases hnested : net.nestedSlots? with _ | ⟨slot, nested⟩
    · rw [hnested] at h
      cases h
    · rw [hnested] at h
      cases h
      exact .inr ⟨⟨_, _, rfl⟩, Network.circle?_eq_none_iff.mp hcircle, slot, nested,
        Network.nests_of_nestedSlots? hnested⟩
  · rw [hcircle] at h
    cases h
    refine .inl ⟨⟨_, rfl⟩, ?_⟩
    by_contra hnone
    rw [Network.circle?_eq_none_iff.mpr fun v hv => hnone ⟨v, hv⟩] at hcircle
    cases hcircle

/-- What a graph is made of. -/
theorem build_eq_ok_iff {graph : Graph} : Graph.build g ceiling = .ok graph ↔
    ∃ net, link g.definitions = .ok net ∧ ∃ ps, net.probabilities ceiling = .ok ps ∧
      net.check = .ok () ∧ graph = ⟨_, net, net.counts, ps, g.contentHash⟩ := by
  rw [Graph.build, bind_eq_ok_iff]
  refine exists_congr fun net => and_congr_right fun _ => ?_
  refine bind_eq_ok_iff.trans (exists_congr fun ps => and_congr_right fun _ => ?_)
  refine bind_eq_ok_iff.trans ?_
  constructor
  · rintro ⟨_, hcheck, hgraph⟩
    exact ⟨hcheck, (Except.ok.inj hgraph).symm⟩
  · rintro ⟨hcheck, rfl⟩
    exact ⟨(), hcheck, rfl⟩

/-- Where an error comes from. -/
theorem build_eq_error_iff {e : Error} : Graph.build g ceiling = .error e ↔
    link g.definitions = .error e ∨ ∃ net, link g.definitions = .ok net ∧
      (net.probabilities ceiling = .error e ∨ ∃ ps, net.probabilities ceiling = .ok ps ∧
        net.check = .error e) := by
  rw [Graph.build, bind_eq_error_iff]
  refine or_congr_right (exists_congr fun net => and_congr_right fun _ => ?_)
  refine bind_eq_error_iff.trans
    (or_congr_right (exists_congr fun ps => and_congr_right fun _ => ?_))
  exact bind_eq_error_iff.trans (or_iff_left nofun)

end Stages

/-! ### What every graph satisfies -/

/-- A graph as it is built: its counts are those of its derivations, every definition has sentences
with a probability each, and references do not lead round or from slot to slot where they must
not. -/
structure Graph.Valid (g : Graph) : Prop where
  counts (v : Fin g.size) : g.counts.get v = g.network.tally v
  choices_ne_nil (v : Fin g.size) : (g.node v).choices ≠ []
  length_probabilities (v : Fin g.size) :
    (g.probabilities.get v).length = (g.node v).choices.length
  circles (v : Fin g.size) : ¬ TransGen g.network.Requires v v
  nesting (v w : Fin g.size) : ¬ g.network.Nests v w

/-- **Every graph that is built is valid.** -/
theorem valid_of_build {ceiling : Nat} {graph : Graph} (h : Graph.build g ceiling = .ok graph) :
    graph.Valid := by
  obtain ⟨net, -, ps, hps, hcheck, rfl⟩ := build_eq_ok_iff.mp h
  obtain ⟨hcircles, hnesting⟩ := check_eq_ok_iff.mp hcheck
  have hget := node_probabilities_get hps
  exact {
    counts := get_counts net
    choices_ne_nil := fun i =>
      ((exists_node_probabilities_iff (length_sentences_tally net i)).mp ⟨_, hget i⟩).1
    length_probabilities := fun i =>
      length_node_probabilities (length_sentences_tally net i) (hget i)
    circles := hcircles
    nesting := hnesting }

/-! ### Which grammars are accepted -/

/-- **A grammar is accepted** if it passes all checks. -/
theorem exists_build_iff_passes (hg : g.Distinct) (ceiling : Nat) :
    (∃ graph, Graph.build g ceiling = .ok graph) ↔ ∀ check, g.Passes check := by
  constructor
  · rintro ⟨graph, h⟩ check
    obtain ⟨net, hnet, ps, hps, hcheck, rfl⟩ := build_eq_ok_iff.mp h
    have hmirrors := mirrors_of_link hnet
    obtain ⟨hcircles, hnesting⟩ := check_eq_ok_iff.mp hcheck
    cases check with
    | references => exact exists_link_iff_resolved.mp ⟨net, hnet⟩
    | weights => exact (exists_probabilities_iff_weights hmirrors).mp ⟨ps, hps⟩
    | circles => exact (passes_circles_iff hmirrors hg).mpr hcircles
    | nesting => exact (passes_nesting_iff hmirrors hg).mpr hnesting
  · intro hpass
    obtain ⟨net, hnet⟩ := exists_link_iff_resolved.mpr (hpass .references)
    have hmirrors := mirrors_of_link hnet
    obtain ⟨ps, hps⟩ : ∃ ps, net.probabilities ceiling = .ok ps :=
      (exists_probabilities_iff_weights hmirrors).mpr (hpass .weights)
    have hcheck : net.check = .ok () := check_eq_ok_iff.mpr
      ⟨(passes_circles_iff hmirrors hg).mp (hpass .circles),
        (passes_nesting_iff hmirrors hg).mp (hpass .nesting)⟩
    exact ⟨_, build_eq_ok_iff.mpr ⟨net, hnet, ps, hps, hcheck, rfl⟩⟩

/-- The network of a graph says what the grammar says. -/
theorem mirrors_of_build {ceiling : Nat} {graph : Graph} (h : Graph.build g ceiling = .ok graph) :
    graph.network.Mirrors g := by
  obtain ⟨net, hnet, ps, -, -, rfl⟩ := build_eq_ok_iff.mp h
  exact mirrors_of_link hnet

/-- A failure of linking is one of references. -/
theorem check?_of_link_eq_error {ds : List Definition} {e : Error} (h : link ds = .error e) :
    e.check? = some .references := by
  obtain ⟨d, -, a, -, x, -, hx⟩ := exists_of_link_eq_error h
  obtain ⟨r, -, ⟨-, rfl⟩ | ⟨-, -, rfl⟩⟩ := linkElement_eq_error_iff.mp hx
  · rfl
  · rfl

/-- A failure of the probabilities is one of weights. -/
theorem check?_of_probabilities_eq_error {ceiling : Nat} {e : Error}
    (h : net.probabilities ceiling = .error e) : e.check? = some .weights := by
  obtain ⟨⟨v, tally⟩, -, hv⟩ := exists_of_mapM_eq_error (vector_mapM_eq_error_iff.mp h)
  obtain rfl | ⟨total, rfl⟩ := eq_of_node_probabilities_eq_error hv
  · rfl
  · rfl

/-- **A grammar that is refused** is refused by the first check that it does not pass. -/
theorem check_of_build_eq_error (hg : g.Distinct) {ceiling : Nat} {e : Error}
    (h : Graph.build g ceiling = .error e) :
    ∃ check, e.check? = some check ∧ ¬ g.Passes check ∧
      ∀ earlier : Check, earlier.rank < check.rank → g.Passes earlier := by
  rcases build_eq_error_iff.mp h with hlink | ⟨net, hnet, hrest⟩
  · -- there is no network
    refine ⟨.references, check?_of_link_eq_error hlink, fun hpass => ?_, nofun⟩
    obtain ⟨net, hnet⟩ := exists_link_iff_resolved.mpr hpass
    rw [hlink] at hnet
    cases hnet
  have hmirrors := mirrors_of_link hnet
  have hreferences : g.Passes .references := exists_link_iff_resolved.mp ⟨net, hnet⟩
  rcases hrest with hps | ⟨ps, hps, hcheck⟩
  · -- there is a network, but some definition has no probabilities
    refine ⟨.weights, check?_of_probabilities_eq_error hps, fun hpass => ?_, ?_⟩
    · obtain ⟨ps, h'⟩ := (exists_probabilities_iff_weights hmirrors).mpr hpass
      rw [hps] at h'
      cases h'
    · rintro (_ | _ | _ | _) hlt
      · exact hreferences
      all_goals exact absurd hlt (by decide)
  have hweights : g.Passes .weights := (exists_probabilities_iff_weights hmirrors).mp ⟨ps, hps⟩
  -- one of the searches has found something, the search for circles first
  rcases of_check_eq_error hcheck with ⟨⟨circle, rfl⟩, v, hv⟩ | ⟨⟨slot, nested, rfl⟩, hnone, v, w, hvw⟩
  · refine ⟨.circles, rfl, fun hpass => (passes_circles_iff hmirrors hg).mp hpass v hv, ?_⟩
    rintro (_ | _ | _ | _) hlt
    · exact hreferences
    · exact hweights
    all_goals exact absurd hlt (by decide)
  · refine ⟨.nesting, rfl, fun hpass => (passes_nesting_iff hmirrors hg).mp hpass v w hvw, ?_⟩
    rintro (_ | _ | _ | _) hlt
    · exact hreferences
    · exact hweights
    · exact (passes_circles_iff hmirrors hg).mpr hnone
    · exact absurd hlt (by decide)

/-! ### A grammar that is accepted -/

/-- An order of tea or coffee, with a phrase that may be as long as one likes. -/
def Grammar.drinks : Grammar where
  source := ""
  definitions := [
    { key := ⟨.intent, "order", none⟩, arguments := [], line := 1
      alternatives := [
        { elements := [.literal "bring me" false, .reference ⟨.slot, "drink", none, false, 10⟩]
          weight := none, line := 2 }] },
    { key := ⟨.slot, "drink", none⟩, arguments := [], line := 3
      alternatives := [
        { elements := [.literal "tea" false], weight := none, line := 4 },
        { elements := [.reference ⟨.alias, "coffee", none, false, 1⟩]
          weight := none, line := 5 }] },
    { key := ⟨.alias, "coffee", none⟩, arguments := [], line := 6
      alternatives := [
        { elements := [.literal "black" true, .literal "coffee" false]
          weight := none, line := 7 }] },
    { key := ⟨.alias, "soon", none⟩, arguments := [], line := 8
      alternatives := [
        { elements := [.literal "very" false, .reference ⟨.alias, "soon", none, true, 6⟩]
          weight := none, line := 9 }] }]

/-- The network of that grammar. -/
def Network.drinks : Network 4 := #v[
  { key := ⟨.intent, "order", none⟩, arguments := []
    choices := [
      { steps := [.words ["bring", "me"] false, .reference 1 false], weight := none, line := 2 }] },
  { key := ⟨.slot, "drink", none⟩, arguments := []
    choices := [
      { steps := [.words ["tea"] false], weight := none, line := 4 },
      { steps := [.reference 2 false], weight := none, line := 5 }] },
  { key := ⟨.alias, "coffee", none⟩, arguments := []
    choices := [
      { steps := [.words ["black"] true, .words ["coffee"] false], weight := none, line := 7 }] },
  { key := ⟨.alias, "soon", none⟩, arguments := []
    choices := [
      { steps := [.words ["very"] false, .reference 3 true], weight := none, line := 9 }] }]

theorem distinct_drinks : Grammar.drinks.Distinct := by
  rw [Grammar.Distinct]
  decide

theorem link_drinks : link Grammar.drinks.definitions = .ok Network.drinks := by
  with_unfolding_all rfl

theorem nestedSlots?_drinks : Network.drinks.nestedSlots? = none := by
  rw [Network.nestedSlots?, List.findSome?_eq_none_iff]
  intro v _
  split
  · next hslot =>
    obtain rfl : v = 1 := by
      revert hslot
      decide +revert
    have htargets : (Network.drinks.get 1).targets.reverse = [2] := rfl
    rw [htargets, Network.slotWithin?, dif_neg (by decide), if_neg (by decide)]
    exact congrArg _ (Network.slotWithin?.eq_1 _ _)
  · rfl

/-- The graph of that grammar. -/
def Graph.drinks : Graph :=
  ⟨4, .drinks, Network.drinks.counts, #v[[1.0], [0.5, 0.5], [1.0], [1.0]],
    Grammar.drinks.contentHash⟩

theorem build_drinks : Graph.build .drinks 10000 = .ok .drinks := by
  have hprobabilities :
      Network.drinks.probabilities 10000 = .ok #v[[1.0], [0.5, 0.5], [1.0], [1.0]] :=
    probabilities_eq_ok (by decide +kernel)
  have hcircle : Network.drinks.circle? = none := by decide +kernel
  have hcheck : Network.drinks.check = .ok () := by
    rw [Network.check, hcircle, nestedSlots?_drinks]
  exact build_eq_ok_iff.mpr ⟨_, link_drinks, _, hprobabilities, hcheck, rfl⟩

/-! ### The theorem -/

/-- **Acceptance.**  A grammar has a graph exactly if it passes all four checks; the graph says what
the grammar says; and a grammar without a graph is refused by the first check that it does not
pass. -/
theorem build_accepts_iff_passes (g : Grammar) (hg : g.Distinct) (ceiling : Nat) :
    ((∃ graph, Graph.build g ceiling = .ok graph) ↔ ∀ check, g.Passes check) ∧
      (∀ graph, Graph.build g ceiling = .ok graph → graph.network.Mirrors g) ∧
      ∀ e, Graph.build g ceiling = .error e →
        ∃ check, e.check? = some check ∧ ¬ g.Passes check ∧
          ∀ earlier : Check, earlier.rank < check.rank → g.Passes earlier :=
  ⟨exists_build_iff_passes hg ceiling, fun _ h => mirrors_of_build h,
    fun _ h => check_of_build_eq_error hg h⟩

theorem drinks_passes : Grammar.drinks.Distinct ∧ ∀ check, Grammar.drinks.Passes check := by
  have hdistinct : Grammar.drinks.Distinct := by
    rw [Grammar.Distinct]
    decide
  exact ⟨hdistinct, (build_accepts_iff_passes .drinks hdistinct 10000).1.mp ⟨_, build_drinks⟩⟩

end IntentGrammar
