import IntentGrammar.Proofs.Sampling
import IntentGrammar.Proofs.Words

/-!
# What the tokens of an utterance are

A plain word of an utterance is one word.  A value is words with single spaces between them, of a
slot that the grammar defines, and where it has a wording, this is the name of an alias by which the
grammar spells the value (`Token.Formed`).

Whatever way an utterance is produced, by random words or by its number, a derivation says it, and
what holds of words and of values made of such tokens holds of all its tokens
(`Derivation.forall_tokens`).  Two checks and a rule meet in the values: references are only to
slots and aliases, and no slot refers to a slot, so a wording is the name of an alias; and a slot
that says nothing has no value, so no value is empty.

A text of such tokens is one of words with single spaces between them, and it tells the words
(**`utterances_are_formed`**).
-/

namespace IntentGrammar

open Relation

/-! ### From what is said to what says it -/

section Ascent

variable {n : Nat} {net : Network n} {T : Token → Prop}

/-- A property of tokens that the words of sentences have, and the value of a slot if all that the
slot says has it. -/
structure Network.Ascends (net : Network n) (T : Token → Prop) : Prop where
  word {v : Fin n} {c : Choice n} {words : List String} {optional : Bool} :
    c ∈ (net.get v).choices → .words words optional ∈ c.steps → ∀ w ∈ words, T (.word w)
  entity {v : Fin n} (d : Derivation net v) : net.IsSlot v → d.tokens ≠ [] → (∀ t ∈ d.tokens, T t) →
    T (.entity (net.get v).key.name (Utterance.text d.tokens) d.synonym?)

mutual

/-- What ascends holds of all tokens of a derivation. -/
theorem Derivation.forall_tokens (h : net.Ascends T) {v : Fin n} :
    ∀ d : Derivation net v, ∀ t ∈ d.tokens, T t
  | .choose i ds => by
    rw [Derivation.tokens]
    exact ds.forall_tokens h fun s hs => ⟨_, List.get_mem _ i, hs⟩

theorem Decisions.forall_tokens (h : net.Ascends T) {v : Fin n} : {steps : List (Step n)} →
    (∀ s ∈ steps, ∃ c ∈ (net.get v).choices, s ∈ c.steps) →
    ∀ ds : Decisions net steps, ∀ t ∈ ds.tokens, T t
  | _, _, .nil => by
    rw [Decisions.tokens]
    exact List.forall_mem_nil _
  | _, hsteps, .cons d ds => by
    obtain ⟨hs, hsteps⟩ := List.forall_mem_cons.mp hsteps
    rw [Decisions.tokens]
    exact List.forall_mem_append.mpr ⟨d.forall_tokens h hs, ds.forall_tokens h hsteps⟩

theorem Decision.forall_tokens (h : net.Ascends T) {v : Fin n} : {s : Step n} →
    (∃ c ∈ (net.get v).choices, s ∈ c.steps) → ∀ d : Decision net s, ∀ t ∈ d.tokens, T t
  | .words words optional, ⟨c, hc, hs⟩, .keepWords => by
    rw [Decision.tokens, List.forall_mem_map]
    exact h.word hc hs
  | _, _, .dropWords => by
    rw [Decision.tokens]
    exact List.forall_mem_nil _
  | .reference w _, _, .keep d => by
    have hd := d.forall_tokens h
    rw [Decision.tokens_keep, Expansion.place]
    split
    · next hslot =>
      -- a slot that says nothing contributes nothing
      split
      · exact List.forall_mem_nil _
      · next hne =>
        exact List.forall_mem_singleton.mpr
          (h.entity d hslot (List.isEmpty_iff.not.mp hne) hd)
    · exact hd
  | _, _, .drop => by
    rw [Decision.tokens]
    exact List.forall_mem_nil _

end

end Ascent

/-! ### Tokens that are formed -/

section Formed

variable (grammar : Grammar) (g : Graph)

/-- A slot of the grammar has a sentence that is nothing but a reference to an alias, which cannot
be left out, and the value is what an expansion of this alias says. -/
def Graph.Spelled (slot name value : String) : Prop :=
  ∃ d ∈ grammar.definitions, d.key.kind = .slot ∧ d.key.name = slot ∧
    ∃ a ∈ d.alternatives, ∃ r : Reference, a.elements = [.reference r] ∧ r.kind = .alias ∧
      r.name = name ∧ r.optional = false ∧
      ∃ (v : Fin g.size) (e : Derivation g.network v), (g.node v).key = r.target ∧
        Utterance.text e.tokens = value

/-- A plain word is one word; a value is words with single spaces between them, of a slot of the
grammar, and its wording is that of an alias. -/
inductive Token.Formed : Token → Prop
  | word {text : String} (h : IsWord text) : Formed (.word text)
  | entity {slot value : String} {synonym : Option String}
      (hslot : ∃ d ∈ grammar.definitions, d.key.kind = .slot ∧ d.key.name = slot)
      (hvalue : Spaced value) (hsynonym : ∀ name ∈ synonym, g.Spelled grammar slot name value) :
      Formed (.entity slot value synonym)

variable {grammar g}

theorem Token.Formed.spaced {t : Token} (h : t.Formed grammar g) : Spaced t.text := by
  cases h with
  | word h => exact h.spaced
  | entity _ hvalue _ => exact hvalue

end Formed

/-! ### What a network takes from the grammar -/

section Network

variable {n : Nat} {net : Network n} {grammar : Grammar} {v w : Fin n} {c : Choice n}

theorem Step.Mirrors.exists_reference {x : Element} {optional : Bool}
    (h : Step.Mirrors net x (.reference w optional)) :
    ∃ r, x = .reference r ∧ (net.get w).key = r.target ∧ r.optional = optional := by
  cases h with
  | reference r _ hkey => exact ⟨r, rfl, hkey, rfl⟩

namespace Network.Mirrors

/-- The words of a step are words. -/
theorem isWord (h : net.Mirrors grammar) {words : List String} {optional : Bool}
    (hc : c ∈ (net.get v).choices) (hs : .words words optional ∈ c.steps) :
    ∀ w ∈ words, IsWord w := by
  obtain ⟨d, -, hd⟩ := exists_left_of_forall₂ h (mem_toList_get net v)
  obtain ⟨a, -, ha⟩ := exists_left_of_forall₂ hd.choices hc
  obtain ⟨x, -, hx⟩ := exists_left_of_forall₂ ha.steps hs
  cases hx with
  | literal text _ => exact fun w => isWord_of_mem_wordsOf

theorem exists_slot (h : net.Mirrors grammar) (hv : net.IsSlot v) :
    ∃ d ∈ grammar.definitions, d.key.kind = .slot ∧ d.key.name = (net.get v).key.name := by
  obtain ⟨d, hd, hdv⟩ := exists_left_of_forall₂ h (mem_toList_get net v)
  rw [Network.IsSlot, hdv.key] at hv
  exact ⟨d, hd, hv, congrArg Key.name hdv.key.symm⟩

/-- A sentence that is nothing but a reference is one in the grammar. -/
theorem exists_elements_eq (h : net.Mirrors grammar) {optional : Bool}
    (hc : c ∈ (net.get v).choices) (hsteps : c.steps = [.reference w optional]) :
    ∃ d ∈ grammar.definitions, d.key = (net.get v).key ∧ ∃ a ∈ d.alternatives, ∃ r,
      a.elements = [.reference r] ∧ (net.get w).key = r.target ∧ r.optional = optional := by
  obtain ⟨d, hd, hdv⟩ := exists_left_of_forall₂ h (mem_toList_get net v)
  obtain ⟨a, ha, hac⟩ := exists_left_of_forall₂ hdv.choices hc
  have helements := hac.steps
  rw [hsteps] at helements
  obtain ⟨x, xs, hx, hxs, helements⟩ := List.forall₂_cons_right_iff.mp helements
  obtain rfl := List.forall₂_nil_right_iff.mp hxs
  obtain ⟨r, rfl, hkey, hoptional⟩ := hx.exists_reference
  exact ⟨d, hd, hdv.key.symm, a, ha, r, helements, hkey, hoptional⟩

end Network.Mirrors

/-- A sentence of a slot has a wording if it is nothing but a reference that cannot be left out. -/
theorem Network.exists_of_synonym?_eq_some {v : Node n} {name : String}
    (h : net.synonym? v c = some name) :
    ∃ w, c.steps = [.reference w false] ∧ (net.get w).key.name = name := by
  rw [Network.synonym?] at h
  split at h
  · next w _ hsteps => exact ⟨w, hsteps, Option.some.inj h⟩
  · cases h

/-- Where all that is said is what one reference contributes, its target says it. -/
theorem Decisions.exists_place_eq {steps : List (Step n)} (h : steps = [.reference w false])
    (ds : Decisions net steps) :
    ∃ d : Derivation net w, ds.tokens = d.expansion.place (net.get w).key := by
  subst h
  cases ds with
  | cons d ds =>
    cases ds
    cases d with
    | keep d =>
      refine ⟨d, ?_⟩
      rw [Decisions.tokens, Decisions.tokens, List.append_nil, Decision.tokens_keep]

end Network

/-! ### Graphs -/

section Built

variable {grammar : Grammar} {ceiling : Nat} {g : Graph} {v : Fin g.size} {u : Utterance}

theorem resolved_of_build (h : Graph.build grammar ceiling = .ok g) : grammar.Resolved := by
  obtain ⟨net, hnet, -⟩ := build_eq_ok_iff.mp h
  exact exists_link_iff_resolved.mp ⟨net, hnet⟩

/-- A wording that a value has is the name of an alias that says the value. -/
theorem spelled_of_synonym? (hbuild : Graph.build grammar ceiling = .ok g)
    (hv : g.network.IsSlot v) (d : Derivation g.network v) {name : String}
    (h : d.synonym? = some name) :
    g.Spelled grammar (g.node v).key.name name (Utterance.text d.tokens) := by
  cases d with
  | choose i ds =>
    obtain ⟨w, hsteps, rfl⟩ := Network.exists_of_synonym?_eq_some h
    have hmem := List.get_mem (g.network.get v).choices i
    obtain ⟨d, hd, hdv, a, ha, r, helements, hkey, hoptional⟩ :=
      (mirrors_of_build hbuild).exists_elements_eq hmem hsteps
    -- what a slot refers to is no slot, and nothing refers to an intent
    have hrefers : g.network.Refers v w := ⟨_, hmem, false, hsteps ▸ List.mem_singleton_self _⟩
    have hslot : ¬ g.network.IsSlot w :=
      fun hw => (valid_of_build hbuild).nesting v w ⟨hv, hw, TransGen.single hrefers⟩
    have hkind : r.kind = .alias := by
      have hr : Element.reference r ∈ a.elements := helements ▸ List.mem_singleton_self _
      obtain ⟨hintent, -⟩ := resolved_of_build hbuild d hd a ha r hr
      rw [Network.IsSlot, hkey] at hslot
      rcases hr : r.kind with _ | _ | _
      · exact absurd hr hintent
      · exact absurd hr hslot
      · rfl
    obtain ⟨e, he⟩ := ds.exists_place_eq hsteps
    have hplace : e.expansion.place (g.network.get w).key = e.tokens := if_neg hslot
    refine ⟨d, hd, (congrArg Key.kind hdv).trans hv, congrArg Key.name hdv, a, ha, r, helements,
      hkind, congrArg Key.name hkey.symm, hoptional, w, e, hkey, ?_⟩
    rw [Derivation.tokens, he, hplace]

/-- What the definitions of a graph say is formed. -/
theorem ascends_of_build (hbuild : Graph.build grammar ceiling = .ok g) :
    g.network.Ascends (Token.Formed grammar g) where
  word hc hs w hw := .word ((mirrors_of_build hbuild).isWord hc hs w hw)
  entity d hslot hne hd := by
    have hvalue : Spaced (Utterance.text d.tokens) :=
      Utterance.spaced_text hne fun t ht => (hd t ht).spaced
    exact .entity ((mirrors_of_build hbuild).exists_slot hslot) hvalue
      fun name hname => spelled_of_synonym? hbuild hslot d hname

/-! ### What a graph produces -/

/-- The utterances that are drawn for a definition, whatever the random words are, and those that
are found by number, if the definition has fewer expansions than the largest number counted. -/
inductive Graph.Produces (g : Graph) (v : Fin g.size) : Utterance → Prop
  | drawn {σ : Type} [WordSource σ] (settings : Settings) {source source' : σ} {u : Utterance}
      (h : (g.drawUtterance settings v).run source = some (u, source')) : Produces g v u
  | numbered {paths k : Nat} {u : Utterance} (hcount : g.count v = .finite paths)
      (hlt : paths < Cardinality.cap) (hk : k < paths) (h : g.utteranceAt? v k = some u) :
      Produces g v u

/-- What is produced is what a derivation says. -/
theorem Graph.Produces.exists_tokens_eq (h : g.Produces v u) (hg : g.Valid) :
    ∃ d : Derivation g.network v, d.tokens = u := by
  cases h with
  | @drawn σ _ settings source source' _ h =>
    have hyields : Drawing.Yields (g.drawUtterance settings v : Drawing σ Utterance) _ :=
      hg.yields_drawUtterance settings v
    obtain ⟨u', source'', hrun, d, hd, -⟩ := hyields source
    rw [h] at hrun
    cases hrun
    exact ⟨d, hd⟩
  | numbered hcount hlt hk h =>
    obtain ⟨hv, hcard⟩ := few_of_count_eq hg hcount hlt
    obtain ⟨d, rfl⟩ := exists_number_eq hv.1 (hk.trans_eq hcard.symm)
    rw [hg.utteranceAt?_number hv d] at h
    exact ⟨d, Option.some.inj h⟩

theorem forall_formed_of_produces (hbuild : Graph.build grammar ceiling = .ok g)
    (h : g.Produces v u) : ∀ t ∈ u, t.Formed grammar g := by
  obtain ⟨d, rfl⟩ := h.exists_tokens_eq (valid_of_build hbuild)
  exact d.forall_tokens (ascends_of_build hbuild)

end Built

/-- **Every utterance is formed.**  Whatever a graph produces, for any of its definitions, has
tokens that are formed, and a text without white space at an end or next to white space; and two
such utterances have the same text exactly if their tokens have the same words. -/
theorem utterances_are_formed {grammar : Grammar} {ceiling : Nat} {g : Graph}
    (hbuild : Graph.build grammar ceiling = .ok g) :
    (∀ v u, g.Produces v u →
      (∀ t ∈ u, t.Formed grammar g) ∧ SinglySpaced (Utterance.text u).toList) ∧
    ∀ v v' u u', g.Produces v u → g.Produces v' u' →
      (Utterance.text u = Utterance.text u' ↔ Utterance.words u = Utterance.words u') := by
  have hspaced : ∀ v u, g.Produces v u → ∀ t ∈ u, Spaced t.text :=
    fun v u h t ht => (forall_formed_of_produces hbuild h t ht).spaced
  constructor
  · intro v u h
    exact ⟨forall_formed_of_produces hbuild h, Utterance.singlySpaced_text (hspaced v u h)⟩
  · intro v v' u u' h h'
    exact Utterance.text_eq_text_iff (hspaced v u h) (hspaced v' u' h')

/-- One way to order a drink is to order coffee, with all its words. -/
theorem exists_order_of_coffee : ∃ d : Derivation Network.drinks 0,
    d.tokens = [.word "bring", .word "me", .entity "drink" "black coffee" (some "coffee")] := by
  -- the only sentence, with the second one of the slot and all that the alias may say
  refine ⟨.choose ⟨0, Nat.one_pos⟩ <| .cons .keepWords <| .cons
    (.keep <| .choose ⟨1, Nat.one_lt_two⟩ <| .cons
      (.keep <| .choose ⟨0, Nat.one_pos⟩ <| .cons .keepWords <| .cons .keepWords .nil) .nil) .nil, ?_⟩
  decide +kernel

/-- Coffee is ordered by a value that the grammar spells. -/
theorem order_of_coffee : ∃ (v : Fin Graph.drinks.size) (u : Utterance),
    Graph.build .drinks 10000 = .ok .drinks ∧ Graph.drinks.Produces v u ∧
      Utterance.text u = "bring me black coffee" ∧
      Graph.drinks.Spelled .drinks "drink" "coffee" "black coffee" ∧
      SinglySpaced (Utterance.text u).toList := by
  have hg : Graph.drinks.Valid := valid_of_build build_drinks
  have hcount : Graph.drinks.count (0 : Fin 4) = .finite 3 := by decide +kernel
  have hcap : 3 < Cardinality.cap := by decide
  obtain ⟨hv, hcard⟩ := few_of_count_eq hg hcount hcap
  -- the order has a number, by which it is found
  obtain ⟨d, htokens⟩ := exists_order_of_coffee
  have hnumber := (d.number_lt hv.1).trans_eq hcard
  have hproduces : Graph.drinks.Produces (0 : Fin 4) d.tokens :=
    .numbered hcount hcap hnumber (hg.utteranceAt?_number hv d)
  rw [htokens] at hproduces
  obtain ⟨hformed, hspaced⟩ := (utterances_are_formed build_drinks).1 _ _ hproduces
  refine ⟨(0 : Fin 4), _, build_drinks, hproduces, by decide +kernel, ?_, hspaced⟩
  cases hformed (.entity "drink" "black coffee" (some "coffee")) (by decide) with
  | entity _ _ hsynonym => exact hsynonym "coffee" rfl

end IntentGrammar
