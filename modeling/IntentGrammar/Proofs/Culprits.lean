import IntentGrammar.Proofs.Acceptance

/-!
# What a refusal blames

A grammar that is refused for its structure is told by which definitions.  Here this is held
against the grammar itself, without numbers and without the searches that have found it.

* The reference that is blamed is the first one, in the order of definitions, sentences and parts of
  sentences, that asks for an intent or for nothing that is defined (`link_eq_error_iff`).  Linking
  goes through three lists, one within the other; its failure is the first failure of a single list,
  that of all references (`failure?_link`).
* The circle that is blamed goes round along references of the grammar that cannot be left out
  (`Network.Mirrors.goesRound`).
* The slots that are blamed are one within the other, and no slot that is declared before has a slot
  within it (`Network.Mirrors.firstNesting`).
-/

namespace IntentGrammar

open Relation

/-! ### The first failure -/

section Failure

variable {ε α β γ : Type}

/-- The failure of a computation, if it fails. -/
def failure? : Except ε α → Option ε
  | .error e => some e
  | .ok _ => none

theorem failure?_eq_some_iff {m : Except ε α} {e : ε} : failure? m = some e ↔ m = .error e := by
  rcases m with e' | a
  · exact ⟨fun h => congrArg _ (Option.some.inj h), fun h => congrArg _ (Except.error.inj h)⟩
  · exact ⟨nofun, nofun⟩

theorem failure?_bind {m : Except ε α} {f : α → Except ε β} (hf : ∀ a, failure? (f a) = none) :
    failure? (m >>= f) = failure? m := by
  rcases m with e | a
  · rfl
  · exact hf a

/-- What goes through a list fails with the first failure. -/
theorem failure?_mapM (f : α → Except ε β) (xs : List α) :
    failure? (xs.mapM f) = xs.findSome? fun x => failure? (f x) := by
  induction xs with
  | nil => rfl
  | cons x xs ih =>
    rw [List.mapM_cons, List.findSome?_cons, ← ih]
    rcases f x with e | y
    · rfl
    · exact failure?_bind (m := xs.mapM f) fun _ => rfl

theorem findSome?_flatMap (f : β → Option γ) (g : α → List β) (xs : List α) :
    (xs.flatMap g).findSome? f = xs.findSome? fun x => (g x).findSome? f := by
  simp only [← List.head?_filterMap, List.filterMap_flatMap, List.head?_flatMap]

theorem findSome?_filterMap (f : β → Option γ) (g : α → Option β) (xs : List α) :
    (xs.filterMap g).findSome? f = xs.findSome? fun x => (g x).bind f := by
  simp only [← List.head?_filterMap, List.filterMap_filterMap]

end Failure

/-! ### The first reference that asks for what is not there -/

/-- The reference that a part of a sentence is. -/
def Element.reference? : Element → Option Reference
  | literal _ _ => none
  | reference r => some r

/-- The references of a definition, in the order of its sentences and of their parts. -/
def Definition.references (d : Definition) : List Reference :=
  d.alternatives.flatMap fun a => a.elements.filterMap Element.reference?

namespace Grammar

/-- The references of a grammar in their order, each with the definition that it is in. -/
def references (g : Grammar) : List (Definition × Reference) :=
  g.definitions.flatMap fun d => d.references.map fun r => (d, r)

/-- A reference asks for an intent, or for a key that no definition has. -/
def Faulty (g : Grammar) (r : Reference) : Prop :=
  r.kind = .intent ∨ ∀ d ∈ g.definitions, d.key ≠ r.target

/-- A reference in a definition is faulty, and none of those before it is. -/
def FirstFaulty (g : Grammar) (d : Definition) (r : Reference) : Prop :=
  g.Faulty r ∧
    ∃ before after, g.references = before ++ (d, r) :: after ∧ ∀ x ∈ before, ¬ g.Faulty x.2

end Grammar

variable {g : Grammar}

/-- Linking fails with the failure of the first reference that fails. -/
theorem failure?_link (ds : List Definition) (source : String) :
    failure? (link ds) = (Grammar.mk ds source).references.findSome?
      fun x => failure? (linkElement ds x.1.key (.reference x.2)) := by
  have hlink : failure? (link ds) = failure? (ds.mapM (linkDefinition ds)) := by
    rcases hnet : link ds with e | net
    · rw [link, vector_mapM_eq_error_iff, toList_ofFn_get] at hnet
      rw [hnet]
      rfl
    · rw [link, vector_mapM_eq_ok_iff, toList_ofFn_get] at hnet
      rw [hnet]
      rfl
  have helements (within : Key) (a : Alternative) : failure? (linkAlternative ds within a)
      = (a.elements.filterMap Element.reference?).findSome?
        fun r => failure? (linkElement ds within (.reference r)) := by
    rw [linkAlternative, failure?_bind fun _ => rfl, failure?_mapM, findSome?_filterMap]
    congr 1
    funext x
    cases x <;> rfl
  have hdefinition (d : Definition) : failure? (linkDefinition ds d)
      = d.references.findSome? fun r => failure? (linkElement ds d.key (.reference r)) := by
    rw [linkDefinition, failure?_bind fun _ => rfl, failure?_mapM, Definition.references,
      findSome?_flatMap]
    simp only [helements]
  rw [hlink, failure?_mapM, Grammar.references, findSome?_flatMap]
  simp only [hdefinition, List.findSome?_map]
  rfl

theorem failure?_linkElement_eq_none_iff {within : Key} {r : Reference} :
    failure? (linkElement g.definitions within (.reference r)) = none ↔ ¬ g.Faulty r := by
  rcases hr : linkElement g.definitions within (.reference r) with e | s
  · obtain ⟨r', hr', hfault⟩ := linkElement_eq_error_iff.mp hr
    cases hr'
    have hfaulty : g.Faulty r := by
      rcases hfault with ⟨hkind, -⟩ | ⟨-, hnone, -⟩
      · exact .inl hkind
      · exact .inr hnone
    constructor
    · rintro ⟨⟩
    · exact fun hnot => absurd hfaulty hnot
  · obtain ⟨hkind, d, hd, hkey⟩ := exists_linkElement_iff.mp ⟨s, hr⟩ r rfl
    refine ⟨fun _ => ?_, fun _ => rfl⟩
    rintro (hintent | hnone)
    · exact hkind hintent
    · exact hnone d hd hkey

/-- **Linking fails** with what is wrong with the first faulty reference. -/
theorem link_eq_error_iff {e : Error} : link g.definitions = .error e ↔
    ∃ d r, g.FirstFaulty d r ∧ linkElement g.definitions d.key (.reference r) = .error e := by
  rw [← failure?_eq_some_iff, failure?_link g.definitions g.source, List.findSome?_eq_some_iff]
  simp only [failure?_linkElement_eq_none_iff, failure?_eq_some_iff]
  constructor
  · rintro ⟨before, ⟨d, r⟩, after, hsplit, he, hbefore⟩
    refine ⟨d, r, ⟨?_, before, after, hsplit, hbefore⟩, he⟩
    by_contra hnot
    have hnone : failure? (linkElement g.definitions d.key (.reference r)) = none :=
      failure?_linkElement_eq_none_iff.mpr hnot
    rw [he] at hnone
    cases hnone
  · rintro ⟨d, r, ⟨-, before, after, hsplit, hbefore⟩, he⟩
    exact ⟨before, (d, r), after, hsplit, he, hbefore⟩

/-! ### The circle -/

/-- Definitions of a grammar that go round: each has a reference to the next that cannot be left
out, the last is the first again, and no other comes twice. -/
structure Grammar.GoesRound (g : Grammar) (ds : List Definition) : Prop where
  defined : ∀ d ∈ ds, d ∈ g.definitions
  length : 2 ≤ ds.length
  closed : ds.head? = ds.getLast?
  distinct : (ds.dropLast.map (·.key)).Nodup
  chain : ds.IsChain fun d d' => ∃ a ∈ d.alternatives, ∃ r,
    Element.reference r ∈ a.elements ∧ r.optional = false ∧ r.target = d'.key

section Searches

variable {net : Network g.definitions.length}

/-- A definition of the network says what the definition with its number says. -/
theorem Network.Mirrors.node_get (h : net.Mirrors g) (i : Fin g.definitions.length) :
    Node.Mirrors net (g.definitions.get i) (net.get i) := by
  have hi := (List.forall₂_iff_get.mp h).2 i.val i.isLt (by simp)
  rw [Vector.get_eq_getElem]
  simpa using hi

/-- A reference of the network is one of the grammar. -/
theorem Network.Mirrors.exists_reference (h : net.Mirrors g) {i j : Fin g.definitions.length}
    {optional : Bool} (hij : ∃ c ∈ (net.get i).choices, Step.reference j optional ∈ c.steps) :
    ∃ a ∈ (g.definitions.get i).alternatives, ∃ r, Element.reference r ∈ a.elements ∧
      r.optional = optional ∧ r.target = (g.definitions.get j).key := by
  obtain ⟨c, hc, hs⟩ := hij
  obtain ⟨a, ha, hac⟩ := exists_left_of_forall₂ (h.node_get i).choices hc
  obtain ⟨x, hx, hxs⟩ := exists_left_of_forall₂ hac.steps hs
  cases hxs with
  | reference r _ htarget => exact ⟨a, ha, r, hx, rfl, htarget.symm.trans (h.node_get j).key⟩

/-- **A circle of the network** is one of definitions of the grammar. -/
theorem Network.Mirrors.goesRound (h : net.Mirrors g) (hg : g.Distinct)
    {circle : List (Fin g.definitions.length)} (hcircle : net.IsCircle circle) :
    g.GoesRound (circle.map g.definitions.get) where
  defined d hd := by
    obtain ⟨i, -, rfl⟩ := List.mem_map.mp hd
    exact List.get_mem _ _
  length := by
    obtain ⟨v, rest, rfl⟩ := hcircle.closed
    simp
  closed := by
    obtain ⟨v, rest, rfl⟩ := hcircle.closed
    rw [List.map_append, List.map_singleton, List.getLast?_concat]
    rfl
  distinct := by
    have hkeys : Function.Injective fun i => (g.definitions.get i).key := by
      intro i j hij
      exact h.key_injective hg (((h.node_get i).key.trans hij).trans (h.node_get j).key.symm)
    rw [← List.map_dropLast, List.map_map]
    exact hcircle.nodup.map hkeys
  chain := by
    rw [List.isChain_map]
    exact hcircle.chain.imp fun _ _ => h.exists_reference

/-! ### The slots -/

/-- A slot has a slot within it, and no slot that is declared before has one. -/
structure Grammar.FirstNesting (g : Grammar) (slot nested : Key) : Prop where
  isSlot : slot.kind = .slot
  isSlot_nested : nested.kind = .slot
  defined : ∃ d ∈ g.definitions, d.key = nested
  reaches : TransGen g.Refers slot nested
  first : ∃ before d after, g.definitions = before ++ d :: after ∧ d.key = slot ∧
    ∀ d' ∈ before, d'.key.kind = .slot → ∀ k, k.kind = .slot → ¬ TransGen g.Refers d'.key k

theorem Network.Mirrors.transGen_refers_iff (h : net.Mirrors g) (hg : g.Distinct)
    (v w : Fin g.definitions.length) :
    TransGen net.Refers v w
      ↔ TransGen g.Refers (g.definitions.get v).key (g.definitions.get w).key := by
  rw [← (h.node_get v).key, ← (h.node_get w).key]
  exact transGen_map_iff (h.refers_iff hg) fun _ _ hkl => h.exists_key_of_refers hkl

/-- **The first slots of the network** that are one within the other are those of the grammar. -/
theorem Network.Mirrors.firstNesting (h : net.Mirrors g) (hg : g.Distinct)
    {v w : Fin g.definitions.length} (hnests : net.nestedSlots? = some (v, w)) :
    g.FirstNesting (net.get v).key (net.get w).key := by
  obtain ⟨hslot, hnested, hreach⟩ := nests_of_nestedSlots? hnests
  have hkey := fun i => (h.node_get i).key
  refine ⟨hslot, hnested, ⟨_, List.get_mem _ w, (hkey w).symm⟩, ?_, ?_⟩
  · rw [hkey v, hkey w]
    exact (h.transGen_refers_iff hg v w).mp hreach
  · refine ⟨g.definitions.take v, g.definitions.get v, g.definitions.drop (v + 1), ?_,
      (hkey v).symm, ?_⟩
    · simp
    · intro d hd hdslot k hk hdk
      obtain ⟨i, hi, rfl⟩ := List.mem_take_iff_getElem.mp hd
      have hiv : i < v := (lt_min_iff.mp hi).1
      let u : Fin g.definitions.length := ⟨i, hiv.trans v.isLt⟩
      -- what is reached is defined, so it has a number, and the search has not found it
      obtain ⟨x, hx⟩ : ∃ x, (net.get x).key = k := by
        obtain ⟨_, -, hstep⟩ := TransGen.tail'_iff.mp hdk
        exact h.exists_key_of_refers hstep
      refine not_nests_of_lt hnests (u := u) hiv x ⟨?_, ?_, ?_⟩
      · show (net.get u).key.kind = .slot
        rw [hkey u]
        exact hdslot
      · show (net.get x).key.kind = .slot
        rw [hx]
        exact hk
      · refine (h.transGen_refers_iff hg u x).mpr ?_
        rw [← hkey x, hx]
        exact hdk

end Searches

/-! ### Where the refusal comes from -/

section Refusals

variable {ceiling : Nat} {e : Error}

/-- A refusal for references comes from linking. -/
theorem build_eq_error_iff_link (he : e.check? = some .references) :
    Graph.build g ceiling = .error e ↔ link g.definitions = .error e := by
  rw [build_eq_error_iff]
  refine or_iff_left ?_
  rintro ⟨net, -, hps | ⟨ps, -, hcheck⟩⟩
  · cases he.symm.trans (check?_of_probabilities_eq_error hps)
  · rcases of_check_eq_error hcheck with ⟨⟨circle, rfl⟩, -⟩ | ⟨⟨slot, nested, rfl⟩, -⟩
    · cases he
    · cases he

/-- Any other refusal but for weights comes from the searches. -/
theorem exists_check_of_build_eq_error (hbuild : Graph.build g ceiling = .error e)
    (he : e.check? ≠ some .references) (he' : e.check? ≠ some .weights) :
    ∃ net : Network g.definitions.length, net.Mirrors g ∧ net.check = .error e := by
  rcases build_eq_error_iff.mp hbuild with hlink | ⟨net, hnet, hps | ⟨ps, -, hcheck⟩⟩
  · exact absurd (check?_of_link_eq_error hlink) he
  · exact absurd (check?_of_probabilities_eq_error hps) he'
  · exact ⟨net, mirrors_of_link hnet, hcheck⟩

theorem exists_circle?_of_check {n : Nat} {net : Network n} {cycle : List Key}
    (h : net.check = .error (.cyclicDefinition cycle)) :
    ∃ circle, net.circle? = some circle ∧ cycle = circle.map fun v => (net.get v).key := by
  rw [Network.check] at h
  rcases hcircle : net.circle? with _ | circle
  · rw [hcircle] at h
    rcases hslots : net.nestedSlots? with _ | ⟨v, w⟩
    · rw [hslots] at h
      cases h
    · rw [hslots] at h
      cases h
  · rw [hcircle] at h
    cases h
    exact ⟨circle, rfl, rfl⟩

theorem exists_nestedSlots?_of_check {n : Nat} {net : Network n} {slot nested : Key}
    (h : net.check = .error (.nestedSlot slot nested)) :
    ∃ v w, net.nestedSlots? = some (v, w) ∧ slot = (net.get v).key ∧ nested = (net.get w).key := by
  rw [Network.check] at h
  rcases hcircle : net.circle? with _ | circle
  · rw [hcircle] at h
    rcases hslots : net.nestedSlots? with _ | ⟨v, w⟩
    · rw [hslots] at h
      cases h
    · rw [hslots] at h
      cases h
      exact ⟨v, w, rfl, rfl, rfl⟩
  · rw [hcircle] at h
    cases h

theorem message_cyclicDefinition (cycle : List Key) : (Error.cyclicDefinition cycle).message
    = "cyclic definition: " ++ " -> ".intercalate (cycle.map Key.text) := rfl

/-- **A refusal for a circle** names one. -/
theorem exists_goesRound_of_build (hg : g.Distinct) {cycle : List Key}
    (hbuild : Graph.build g ceiling = .error (.cyclicDefinition cycle)) :
    ∃ ds, g.GoesRound ds ∧ cycle = ds.map (·.key) := by
  obtain ⟨net, hmirrors, hcheck⟩ := exists_check_of_build_eq_error hbuild nofun nofun
  obtain ⟨circle, hcircle, rfl⟩ := exists_circle?_of_check hcheck
  refine ⟨_, hmirrors.goesRound hg (Network.isCircle_of_circle? hcircle), ?_⟩
  rw [List.map_map]
  exact List.map_congr_left fun v _ => (hmirrors.node_get v).key

/-- **A refusal for nested slots** names the first that has one within it. -/
theorem firstNesting_of_build (hg : g.Distinct) {slot nested : Key}
    (hbuild : Graph.build g ceiling = .error (.nestedSlot slot nested)) :
    g.FirstNesting slot nested := by
  obtain ⟨net, hmirrors, hcheck⟩ := exists_check_of_build_eq_error hbuild nofun nofun
  obtain ⟨v, w, hslots, rfl, rfl⟩ := exists_nestedSlots?_of_check hcheck
  exact hmirrors.firstNesting hg hslots

/-- A reference that asks for nothing that is defined is blamed if it is the first faulty one. -/
theorem build_eq_undefinedReference_iff {within missing : Key} :
    Graph.build g ceiling = .error (.undefinedReference within missing) ↔
      ∃ d r, g.FirstFaulty d r ∧ r.kind ≠ .intent ∧ d.key = within ∧ r.target = missing := by
  rw [build_eq_error_iff_link rfl, link_eq_error_iff]
  refine exists_congr fun d => exists_congr fun r => and_congr_right fun hfirst => ?_
  rw [linkElement_eq_error_iff]
  constructor
  · rintro ⟨r', hr, ⟨-, he⟩ | ⟨hkind, -, he⟩⟩
    · cases he
    · cases hr
      cases he
      exact ⟨hkind, rfl, rfl⟩
  · rintro ⟨hkind, rfl, rfl⟩
    exact ⟨r, rfl, .inr ⟨hkind, hfirst.1.resolve_left hkind, rfl⟩⟩

/-- A reference that asks for an intent is blamed if it is the first faulty one. -/
theorem build_eq_intentReference_iff {within intent : Key} :
    Graph.build g ceiling = .error (.intentReference within intent) ↔
      ∃ d r, g.FirstFaulty d r ∧ r.kind = .intent ∧ d.key = within ∧ r.target = intent := by
  rw [build_eq_error_iff_link rfl, link_eq_error_iff]
  refine exists_congr fun d => exists_congr fun r => and_congr_right fun hfirst => ?_
  rw [linkElement_eq_error_iff]
  constructor
  · rintro ⟨r', hr, ⟨hkind, he⟩ | ⟨-, -, he⟩⟩
    · cases hr
      cases he
      exact ⟨hkind, rfl, rfl⟩
    · cases he
  · rintro ⟨hkind, rfl, rfl⟩
    exact ⟨r, rfl, .inl ⟨hkind, rfl⟩⟩

end Refusals

/-! ### A grammar that goes round -/

/-- A request that needs a wish, which needs a reason, which needs a wish again; the courtesy that
all of them begin with has nothing to do with it. -/
def Grammar.roundabout : Grammar where
  source := ""
  definitions := [
    { key := ⟨.intent, "ask", none⟩, arguments := [], line := 1
      alternatives := [
        { elements := [.reference ⟨.alias, "courtesy", none, false, 1⟩,
            .reference ⟨.alias, "wish", none, false, 13⟩]
          weight := none, line := 2 }] },
    { key := ⟨.alias, "courtesy", none⟩, arguments := [], line := 3
      alternatives := [{ elements := [.literal "please" false], weight := none, line := 4 }] },
    { key := ⟨.alias, "wish", none⟩, arguments := [], line := 5
      alternatives := [
        { elements := [.reference ⟨.alias, "courtesy", none, false, 1⟩,
            .reference ⟨.alias, "reason", none, false, 13⟩]
          weight := none, line := 6 }] },
    { key := ⟨.alias, "reason", none⟩, arguments := [], line := 7
      alternatives := [
        { elements := [.reference ⟨.alias, "courtesy", none, false, 1⟩]
          weight := none, line := 8 },
        { elements := [.literal "because" false, .reference ⟨.alias, "wish", none, false, 9⟩]
          weight := none, line := 9 }] }]

/-- The network of that grammar. -/
def Network.roundabout : Network 4 :=
  let courtesy : Fin 4 := ⟨1, by decide⟩
  let wish : Fin 4 := ⟨2, by decide⟩
  let reason : Fin 4 := ⟨3, by decide⟩
  #v[
    { key := ⟨.intent, "ask", none⟩, arguments := []
      choices := [
        { steps := [.reference courtesy false, .reference wish false], weight := none, line := 2 }] },
    { key := ⟨.alias, "courtesy", none⟩, arguments := []
      choices := [{ steps := [.words ["please"] false], weight := none, line := 4 }] },
    { key := ⟨.alias, "wish", none⟩, arguments := []
      choices := [
        { steps := [.reference courtesy false, .reference reason false]
          weight := none, line := 6 }] },
    { key := ⟨.alias, "reason", none⟩, arguments := []
      choices := [
        { steps := [.reference courtesy false], weight := none, line := 8 },
        { steps := [.words ["because"] false, .reference wish false]
          weight := none, line := 9 }] }]

theorem link_roundabout : link Grammar.roundabout.definitions = .ok Network.roundabout := by
  with_unfolding_all rfl

theorem build_roundabout (ceiling : Nat) : Graph.build .roundabout ceiling
    = .error (.cyclicDefinition
        [⟨.alias, "wish", none⟩, ⟨.alias, "reason", none⟩, ⟨.alias, "wish", none⟩]) := by
  have hweights : Grammar.roundabout.Passes .weights := by
    intro d hd
    fin_cases hd
    all_goals exact ⟨nofun, by decide +kernel⟩
  obtain ⟨ps, hps⟩ :=
    (exists_probabilities_iff_weights (mirrors_of_link link_roundabout)).mpr hweights
  have hcircle : Network.roundabout.circle? = some [2, 3, 2] := by decide +kernel
  have hcheck : Network.roundabout.check = .error (.cyclicDefinition
      [⟨.alias, "wish", none⟩, ⟨.alias, "reason", none⟩, ⟨.alias, "wish", none⟩]) := by
    rw [Network.check, hcircle]
    rfl
  exact build_eq_error_iff.mpr (.inr ⟨_, link_roundabout, .inr ⟨ps, hps, hcheck⟩⟩)

/-! ### The theorem -/

/-- **Refusals name culprits.**  A circle that is reported is one of definitions of the grammar,
each with a reference to the next that cannot be left out, and their keys are what is shown.  Of two
slots that are reported the second is reached from the first, and no slot declared before the first
reaches any.  A reference is reported as undefined, or as one to an intent, exactly if it is the
first in the order of the grammar that cannot be followed, and with the definition that it is
in. -/
theorem refusals_name_culprits (g : Grammar) (hg : g.Distinct) (ceiling : Nat) :
    (∀ cycle, Graph.build g ceiling = .error (.cyclicDefinition cycle) →
      ∃ ds, g.GoesRound ds ∧ cycle = ds.map (·.key) ∧
        (Error.cyclicDefinition cycle).message
          = "cyclic definition: " ++ " -> ".intercalate (ds.map fun d => d.key.text)) ∧
    (∀ slot nested, Graph.build g ceiling = .error (.nestedSlot slot nested) →
      g.FirstNesting slot nested) ∧
    (∀ within missing, Graph.build g ceiling = .error (.undefinedReference within missing) ↔
      ∃ d r, g.FirstFaulty d r ∧ r.kind ≠ .intent ∧ d.key = within ∧ r.target = missing) ∧
    ∀ within intent, Graph.build g ceiling = .error (.intentReference within intent) ↔
      ∃ d r, g.FirstFaulty d r ∧ r.kind = .intent ∧ d.key = within ∧ r.target = intent := by
  refine ⟨fun cycle hbuild => ?_, fun slot nested => firstNesting_of_build hg,
    fun within missing => build_eq_undefinedReference_iff,
    fun within intent => build_eq_intentReference_iff⟩
  obtain ⟨ds, hround, hcycle⟩ := exists_goesRound_of_build hg hbuild
  refine ⟨ds, hround, hcycle, ?_⟩
  have htexts : cycle.map Key.text = ds.map fun d => d.key.text := by
    rw [hcycle, List.map_map]
    rfl
  rw [← htexts]
  exact message_cyclicDefinition cycle

/-- The circle is cut out of the way to it, and the courtesy that was looked through on the way is
not blamed. -/
theorem culprits_of_roundabout : Grammar.roundabout.Distinct ∧
    Graph.build .roundabout 10 = .error (.cyclicDefinition
      [⟨.alias, "wish", none⟩, ⟨.alias, "reason", none⟩, ⟨.alias, "wish", none⟩]) ∧
    ∃ ds, Grammar.roundabout.GoesRound ds ∧
      ds.map (fun d => d.key.text) = ["~[wish]", "~[reason]", "~[wish]"] := by
  have hdistinct : Grammar.roundabout.Distinct := by
    rw [Grammar.Distinct]
    decide
  obtain ⟨hcircle, -, -, -⟩ := refusals_name_culprits .roundabout hdistinct 10
  obtain ⟨ds, hround, hkeys, -⟩ := hcircle _ (build_roundabout 10)
  refine ⟨hdistinct, build_roundabout 10, ds, hround, ?_⟩
  have htexts := congrArg (List.map Key.text) hkeys
  rw [List.map_map] at htexts
  exact htexts.symm

end IntentGrammar
