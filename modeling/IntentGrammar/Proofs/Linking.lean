import IntentGrammar.Graph.Link
import IntentGrammar.Proofs.References
import IntentGrammar.Proofs.Traversal

/-!
# Linking

A grammar can be linked exactly if every reference asks for a slot or an alias that is defined
(`exists_link_iff_resolved`), and the network says what the grammar says: definition for
definition, sentence for sentence and element for element, with every reference turned into a step
to a definition that has the key asked for (`mirrors_of_link`).

Where no two definitions have the same key, references between numbers and references between keys
are the same thing, so what is known of walks through the network is known of the grammar.
-/

namespace IntentGrammar

open Relation

/-! ### What a network should say -/

section Mirrors

variable {n : Nat} (net : Network n)

/-- A step says what an element says. -/
inductive Step.Mirrors : Element → Step n → Prop
  | literal (text : String) (optional : Bool) :
      Mirrors (.literal text optional) (.words (wordsOf text) optional)
  | reference (r : Reference) (target : Fin n) (h : (net.get target).key = r.target) :
      Mirrors (.reference r) (.reference target r.optional)

/-- A sentence of a network is a sentence of a grammar. -/
structure Choice.Mirrors (a : Alternative) (c : Choice n) : Prop where
  steps : List.Forall₂ (Step.Mirrors net) a.elements c.steps
  weight : c.weight = a.weight
  line : c.line = a.line

/-- A definition of a network is a definition of a grammar. -/
structure Node.Mirrors (d : Definition) (v : Node n) : Prop where
  key : v.key = d.key
  arguments : v.arguments = d.arguments
  choices : List.Forall₂ (Choice.Mirrors net) d.alternatives v.choices

/-- The definitions of a network are those of a grammar, in order. -/
def Network.Mirrors (g : Grammar) : Prop :=
  List.Forall₂ (Node.Mirrors net) g.definitions net.toList

end Mirrors

namespace Grammar

variable (g : Grammar)

/-- Every reference asks for a slot or an alias that is defined. -/
def Resolved : Prop :=
  ∀ d ∈ g.definitions, ∀ a ∈ d.alternatives, ∀ r, Element.reference r ∈ a.elements →
    r.kind ≠ .intent ∧ ∃ d' ∈ g.definitions, d'.key = r.target

/-- A definition with the key `k` refers to the key `l`. -/
def Refers (k l : Key) : Prop :=
  ∃ d ∈ g.definitions, d.key = k ∧ ∃ a ∈ d.alternatives, ∃ r,
    Element.reference r ∈ a.elements ∧ r.target = l

/-- A definition with the key `k` has a reference to the key `l` that cannot be left out. -/
def Requires (k l : Key) : Prop :=
  ∃ d ∈ g.definitions, d.key = k ∧ ∃ a ∈ d.alternatives, ∃ r,
    Element.reference r ∈ a.elements ∧ r.target = l ∧ r.optional = false

/-- No two definitions have the same key. -/
def Distinct : Prop := (g.definitions.map (·.key)).Nodup

end Grammar

/-! ### Linking element by element -/

section Link

variable {ds : List Definition} {within : Key}

theorem key_of_lastIndex? {key : Key} {i : Fin ds.length} (h : lastIndex? ds key = some i) :
    (ds.get i).key = key := by
  have := List.find?_some h
  simpa using this

theorem exists_lastIndex?_iff {key : Key} :
    (∃ i, lastIndex? ds key = some i) ↔ ∃ d ∈ ds, d.key = key := by
  rw [← Option.isSome_iff_exists, lastIndex?, List.find?_isSome]
  constructor
  · rintro ⟨i, -, hi⟩
    exact ⟨ds.get i, List.get_mem ds i, by simpa using hi⟩
  · rintro ⟨d, hd, hkey⟩
    obtain ⟨i, rfl⟩ := List.get_of_mem hd
    exact ⟨i, by simp, by simpa using hkey⟩

/-- The step for an element, once there is one. -/
theorem mirrors_of_linkElement {net : Network ds.length}
    (hkeys : ∀ i, (net.get i).key = (ds.get i).key) {x : Element} {s : Step ds.length}
    (h : linkElement ds within x = .ok s) : Step.Mirrors net x s := by
  match x with
  | .literal text optional =>
    cases h
    exact .literal text optional
  | .reference r =>
    rw [linkElement] at h
    split at h
    · cases h
    · split at h
      · next target htarget =>
        cases h
        exact .reference r target ((hkeys target).trans (key_of_lastIndex? htarget))
      · cases h

/-- An element cannot be linked if it is a reference that asks for an intent, or for a key that no
definition has. -/
theorem linkElement_eq_error_iff {x : Element} {e : Error} :
    linkElement ds within x = .error e ↔ ∃ r, x = .reference r ∧
      (r.kind = .intent ∧ e = .intentReference within r.target ∨
        r.kind ≠ .intent ∧ (∀ d ∈ ds, d.key ≠ r.target) ∧
          e = .undefinedReference within r.target) := by
  match x with
  | .literal text optional => exact ⟨nofun, fun ⟨_, h, _⟩ => by cases h⟩
  | .reference r =>
    have hr : ∀ {P : Reference → Prop}, (∃ r', Element.reference r = .reference r' ∧ P r') ↔ P r :=
      ⟨fun ⟨_, h, hP⟩ => Element.reference.inj h ▸ hP, fun hP => ⟨r, rfl, hP⟩⟩
    rw [hr, linkElement]
    by_cases hkind : r.kind = .intent
    · simp [hkind, eq_comm]
    · rw [if_neg hkind]
      rcases hindex : lastIndex? ds r.target with _ | target
      · -- no definition has the key, or its index would have been found
        have hnone : ∀ d ∈ ds, d.key ≠ r.target := by
          intro d hd hkey
          obtain ⟨i, hi⟩ := exists_lastIndex?_iff.mpr ⟨d, hd, hkey⟩
          rw [hindex] at hi
          cases hi
        constructor
        · intro h
          exact .inr ⟨hkind, hnone, (Except.error.inj h).symm⟩
        · rintro (⟨h, -⟩ | ⟨-, -, rfl⟩)
          · exact absurd h hkind
          · rfl
      · refine ⟨nofun, ?_⟩
        rintro (⟨h, -⟩ | ⟨-, hnone, -⟩)
        · exact absurd h hkind
        · exact absurd (key_of_lastIndex? hindex) (hnone _ (List.get_mem ds target))

/-- An element can be linked unless it is a reference that asks for what is not there. -/
theorem exists_linkElement_iff {x : Element} :
    (∃ s, linkElement ds within x = .ok s) ↔
      ∀ r, x = .reference r → r.kind ≠ .intent ∧ ∃ d ∈ ds, d.key = r.target := by
  constructor
  · rintro ⟨s, hs⟩ r rfl
    by_contra hnot
    have herr : ∃ e, linkElement ds within (.reference r) = .error e := by
      by_cases hkind : r.kind = .intent
      · exact ⟨_, linkElement_eq_error_iff.mpr ⟨r, rfl, .inl ⟨hkind, rfl⟩⟩⟩
      · refine ⟨_, linkElement_eq_error_iff.mpr ⟨r, rfl, .inr ⟨hkind, ?_, rfl⟩⟩⟩
        exact fun d hd hkey => hnot ⟨hkind, d, hd, hkey⟩
    obtain ⟨e, he⟩ := herr
    rw [hs] at he
    cases he
  · intro h
    rcases hx : linkElement ds within x with e | s
    · obtain ⟨r, rfl, herr⟩ := linkElement_eq_error_iff.mp hx
      obtain ⟨hkind, d, hd, hkey⟩ := h r rfl
      rcases herr with ⟨hintent, -⟩ | ⟨-, hnone, -⟩
      · exact absurd hintent hkind
      · exact absurd hkey (hnone d hd)
    · exact ⟨s, rfl⟩

/-! ### Linking sentences and definitions -/

theorem mirrors_of_linkAlternative {net : Network ds.length}
    (hkeys : ∀ i, (net.get i).key = (ds.get i).key) {a : Alternative} {c : Choice ds.length}
    (h : linkAlternative ds within a = .ok c) : Choice.Mirrors net a c := by
  obtain ⟨steps, hsteps, hc⟩ := bind_eq_ok_iff.mp h
  cases hc
  exact ⟨(mapM_eq_ok_iff.mp hsteps).imp fun _ _ => mirrors_of_linkElement hkeys, rfl, rfl⟩

theorem key_of_linkDefinition {d : Definition} {v : Node ds.length}
    (h : linkDefinition ds d = .ok v) : v.key = d.key := by
  obtain ⟨choices, -, hv⟩ := bind_eq_ok_iff.mp h
  cases hv
  rfl

theorem mirrors_of_linkDefinition {net : Network ds.length}
    (hkeys : ∀ i, (net.get i).key = (ds.get i).key) {d : Definition} {v : Node ds.length}
    (h : linkDefinition ds d = .ok v) : Node.Mirrors net d v := by
  obtain ⟨choices, hchoices, hv⟩ := bind_eq_ok_iff.mp h
  cases hv
  exact ⟨rfl, rfl, (mapM_eq_ok_iff.mp hchoices).imp fun _ _ => mirrors_of_linkAlternative hkeys⟩

theorem exists_linkDefinition_iff {d : Definition} :
    (∃ v, linkDefinition ds d = .ok v) ↔
      ∀ a ∈ d.alternatives, ∀ x ∈ a.elements, ∃ s, linkElement ds d.key x = .ok s := by
  have halternative : ∀ a, (∃ c, linkAlternative ds d.key a = .ok c) ↔
      ∀ x ∈ a.elements, ∃ s, linkElement ds d.key x = .ok s := by
    intro a
    rw [← exists_mapM_eq_ok_iff]
    constructor
    · rintro ⟨c, h⟩
      obtain ⟨steps, hsteps, -⟩ := bind_eq_ok_iff.mp h
      exact ⟨steps, hsteps⟩
    · rintro ⟨steps, hsteps⟩
      exact ⟨_, bind_eq_ok_iff.mpr ⟨steps, hsteps, rfl⟩⟩
  rw [← forall₂_congr fun a _ => halternative a, ← exists_mapM_eq_ok_iff]
  constructor
  · rintro ⟨v, h⟩
    obtain ⟨choices, hchoices, -⟩ := bind_eq_ok_iff.mp h
    exact ⟨choices, hchoices⟩
  · rintro ⟨choices, hchoices⟩
    exact ⟨_, bind_eq_ok_iff.mpr ⟨choices, hchoices, rfl⟩⟩

/-! ### Linking grammars -/

theorem toList_ofFn_get (ds : List Definition) : (Vector.ofFn ds.get).toList = ds := by
  rw [Vector.toList_ofFn]
  exact List.ofFn_get ds

theorem link_eq_ok_iff {net : Network ds.length} :
    link ds = .ok net ↔ List.Forall₂ (fun d v => linkDefinition ds d = .ok v) ds net.toList := by
  rw [link, vector_mapM_eq_ok_iff, toList_ofFn_get, mapM_eq_ok_iff]

/-- A network has the keys of its grammar. -/
theorem key_get_of_link {net : Network ds.length} (h : link ds = .ok net) (i : Fin ds.length) :
    (net.get i).key = (ds.get i).key := by
  have hi := vector_mapM_eq_ok_iff_get.mp h i
  have hget : (Vector.ofFn ds.get).get i = ds.get i := by
    rw [Vector.get_eq_getElem, Vector.getElem_ofFn]
  rw [hget] at hi
  exact key_of_linkDefinition hi

end Link

variable {g : Grammar}

/-- **A linked network mirrors the grammar.** -/
theorem mirrors_of_link {net : Network g.definitions.length} (h : link g.definitions = .ok net) :
    net.Mirrors g :=
  (link_eq_ok_iff.mp h).imp fun _ _ => mirrors_of_linkDefinition (key_get_of_link h)

/-- **Linking succeeds** exactly if every reference asks for a slot or alias that is defined. -/
theorem exists_link_iff_resolved : (∃ net, link g.definitions = .ok net) ↔ g.Resolved := by
  have hlink : (∃ net, link g.definitions = .ok net) ↔
      ∀ d ∈ g.definitions, ∃ v, linkDefinition g.definitions d = .ok v := by
    rw [← exists_mapM_eq_ok_iff]
    constructor
    · rintro ⟨net, h⟩
      exact ⟨net.toList, mapM_eq_ok_iff.mpr (link_eq_ok_iff.mp h)⟩
    · rintro ⟨vs, h⟩
      have hlen := (mapM_eq_ok_iff.mp h).length_eq
      refine ⟨⟨vs.toArray, by simp [hlen]⟩, link_eq_ok_iff.mpr ?_⟩
      exact mapM_eq_ok_iff.mp h
  rw [hlink]
  refine forall₂_congr fun d _ => ?_
  rw [exists_linkDefinition_iff]
  refine forall₂_congr fun a _ => ?_
  simp only [exists_linkElement_iff]
  exact ⟨fun h r hr => h _ hr r rfl, fun h x hx r hr => h r (hr ▸ hx)⟩

/-- If linking fails, it is with the failure of an element. -/
theorem exists_of_link_eq_error {ds : List Definition} {e : Error} (h : link ds = .error e) :
    ∃ d ∈ ds, ∃ a ∈ d.alternatives, ∃ x ∈ a.elements, linkElement ds d.key x = .error e := by
  rw [link, vector_mapM_eq_error_iff, toList_ofFn_get] at h
  obtain ⟨d, hd, h⟩ := exists_of_mapM_eq_error h
  have h' : d.alternatives.mapM (linkAlternative ds d.key) = .error e :=
    (bind_eq_error_iff.mp h).resolve_right nofun
  obtain ⟨a, ha, h⟩ := exists_of_mapM_eq_error h'
  have h' : a.elements.mapM (linkElement ds d.key) = .error e :=
    (bind_eq_error_iff.mp h).resolve_right nofun
  obtain ⟨x, hx, h⟩ := exists_of_mapM_eq_error h'
  exact ⟨d, hd, a, ha, x, hx, h⟩

end IntentGrammar
