import IntentGrammar.Expansion.Sampling
import IntentGrammar.Proofs.Enumeration

/-!
# Random expansions are derivations

Whatever the random words are, a random expansion does not fail, and it says what some derivation
says; so where there are few derivations it is one of the utterances that the enumeration yields.
Sentences without a positive probability are chosen only where no sentence has one.

Two things bound the nesting: down to the greatest depth every level is a level of depth, and from
there on only required references are followed, which lead round in no circle.  `Graph.Enough` says
that the levels left are enough for what is still ahead.
-/

namespace IntentGrammar

open Relation

/-! ### Drawing -/

section Drawing

variable {σ α β : Type}

/-- Whatever the words are, the computation does not fail, and its result has the property `Q`. -/
def Drawing.Yields (m : Drawing σ α) (Q : α → Prop) : Prop :=
  ∀ source, ∃ a source', m.run source = some (a, source') ∧ Q a

theorem Drawing.Yields.pure {Q : α → Prop} {a : α} (h : Q a) :
    Drawing.Yields (Pure.pure a : Drawing σ α) Q :=
  fun source => ⟨a, source, rfl, h⟩

theorem Drawing.Yields.bind {m : Drawing σ α} {f : α → Drawing σ β} {Q : α → Prop} {R : β → Prop}
    (hm : Drawing.Yields m Q) (hf : ∀ a, Q a → Drawing.Yields (f a) R) :
    Drawing.Yields (m >>= f) R := by
  intro source
  obtain ⟨a, source', hrun, ha⟩ := hm source
  obtain ⟨b, source'', hrun', hb⟩ := hf a ha source'
  refine ⟨b, source'', ?_, hb⟩
  rw [StateT.run_bind, hrun]
  exact hrun'

variable [WordSource σ]

theorem yields_drawWord : Drawing.Yields (drawWord : Drawing σ UInt64) fun _ => True :=
  fun _ => ⟨_, _, rfl, trivial⟩

theorem yields_drawUnit : Drawing.Yields (drawUnit : Drawing σ Float) fun _ => True :=
  yields_drawWord.bind fun _ _ => .pure trivial

theorem yields_drawBool (p : Float) :
    Drawing.Yields (drawBool p : Drawing σ Bool) fun _ => True := by
  rw [drawBool]
  split
  · exact .pure trivial
  · exact yields_drawWord.bind fun _ _ => .pure trivial

end Drawing

/-! ### The roulette -/

section Roulette

variable {α : Type} {choices : List (α × Float)} {roll sum : Float} {last : Option α} {a : α}

/-- What is picked was picked before or has a positive probability. -/
theorem mem_of_rouletteFrom (h : rouletteFrom roll sum last choices = some a) :
    last = some a ∨ ∃ p, (a, p) ∈ choices ∧ 0.0 < p := by
  induction choices generalizing sum last with
  | nil => exact .inl h
  | cons b choices ih =>
    rw [rouletteFrom] at h
    split at h
    · next hpos =>
      split at h
      · cases h
        exact .inr ⟨_, List.mem_cons_self, hpos⟩
      · rcases ih h with heq | ⟨p, hp, hlt⟩
        · cases heq
          exact .inr ⟨_, List.mem_cons_self, hpos⟩
        · exact .inr ⟨p, List.mem_cons_of_mem b hp, hlt⟩
    · rcases ih h with heq | ⟨p, hp, hlt⟩
      · exact .inl heq
      · exact .inr ⟨p, List.mem_cons_of_mem b hp, hlt⟩

/-- Something is picked if something was picked before or has a positive probability. -/
theorem rouletteFrom_ne_none (h : last ≠ none ∨ ∃ b ∈ choices, 0.0 < b.2) :
    rouletteFrom roll sum last choices ≠ none := by
  induction choices generalizing sum last with
  | nil =>
    rcases h with h | ⟨b, hb, -⟩
    · exact h
    · exact absurd hb List.not_mem_nil
  | cons b choices ih =>
    rw [rouletteFrom]
    split
    · split
      · exact Option.some_ne_none _
      · exact ih (.inl (Option.some_ne_none _))
    · next hpos =>
      refine ih (h.imp_right ?_)
      rintro ⟨b', hb', hlt⟩
      rcases List.mem_cons.mp hb' with rfl | hb'
      · exact absurd hlt hpos
      · exact ⟨b', hb', hlt⟩

/-- One of the choices is picked, and one with a positive probability if there is one. -/
theorem exists_roulette (hne : choices ≠ []) (roll : Float) :
    ∃ a p, roulette roll choices = some a ∧ (a, p) ∈ choices ∧
      ((∃ b ∈ choices, 0.0 < b.2) → 0.0 < p) := by
  rcases hfrom : rouletteFrom roll 0.0 none choices with _ | a
  · -- no probability is positive, and the first choice is taken
    have hnone : ¬ ∃ b ∈ choices, 0.0 < b.2 := fun h => rouletteFrom_ne_none (.inr h) hfrom
    obtain ⟨⟨a, p⟩, rest, rfl⟩ := List.exists_cons_of_ne_nil hne
    refine ⟨a, p, ?_, List.mem_cons_self, fun h => absurd h hnone⟩
    rw [roulette, hfrom]
    rfl
  · rcases mem_of_rouletteFrom hfrom with hlast | ⟨p, hp, hpos⟩
    · cases hlast
    · refine ⟨a, p, ?_, hp, fun _ => hpos⟩
      rw [roulette, hfrom]
      rfl

end Roulette

namespace Graph

variable {g : Graph} {v : Fin g.size}

/-- The probability of a sentence. -/
def probability (g : Graph) (v : Fin g.size) (i : Fin (g.network.get v).choices.length) : Float :=
  (g.probabilities.get v).getD i 0.0

/-- The sentence has a positive probability if a sentence of the definition has one. -/
def Likely (g : Graph) (v : Fin g.size) (i : Fin (g.network.get v).choices.length) : Prop :=
  (∃ j, 0.0 < g.probability v j) → 0.0 < g.probability v i

theorem Valid.mem_weighted_iff (hg : g.Valid) {c : Choice g.size} {p : Float} :
    (c, p) ∈ g.weighted v ↔
      ∃ i, (g.network.get v).choices.get i = c ∧ g.probability v i = p := by
  have hlength : (g.probabilities.get v).length = (g.network.get v).choices.length :=
    hg.length_probabilities v
  have hget : ∀ i : Fin (g.network.get v).choices.length,
      (g.weighted v)[i.val]? = some ((g.network.get v).choices.get i, g.probability v i) := by
    intro i
    have hi : i.val < (g.probabilities.get v).length := i.isLt.trans_eq hlength.symm
    rw [weighted, List.getElem?_zip_eq_some, probability, List.getD_eq_getElem _ _ hi]
    exact ⟨List.getElem?_eq_getElem i.isLt, List.getElem?_eq_getElem hi⟩
  rw [List.mem_iff_getElem?]
  constructor
  · rintro ⟨k, hk⟩
    have hlt : k < (g.network.get v).choices.length := by
      obtain ⟨hchoice, -⟩ := List.getElem?_zip_eq_some.mp hk
      exact (List.getElem?_eq_some_iff.mp hchoice).1
    obtain ⟨rfl, rfl⟩ := Prod.mk.inj (Option.some.inj ((hget ⟨k, hlt⟩).symm.trans hk))
    exact ⟨⟨k, hlt⟩, rfl, rfl⟩
  · rintro ⟨i, rfl, rfl⟩
    exact ⟨i, hget i⟩

/-- A likely sentence is picked. -/
theorem Valid.exists_likely (hg : g.Valid) (v : Fin g.size) (roll : Float) :
    ∃ i, roulette roll (g.weighted v) = some ((g.network.get v).choices.get i) ∧
      g.Likely v i := by
  have hne : g.weighted v ≠ [] := by
    have hpos : 0 < (g.network.get v).choices.length :=
      List.length_pos_iff.mpr (hg.choices_ne_nil v)
    exact List.ne_nil_of_mem (hg.mem_weighted_iff.mpr ⟨⟨0, hpos⟩, rfl, rfl⟩)
  obtain ⟨c, p, hroulette, hmem, hlikely⟩ := exists_roulette hne roll
  obtain ⟨i, rfl, rfl⟩ := hg.mem_weighted_iff.mp hmem
  refine ⟨i, hroulette, ?_⟩
  rintro ⟨j, hj⟩
  exact hlikely ⟨_, hg.mem_weighted_iff.mpr ⟨j, rfl, rfl⟩, hj⟩

/-! ### Steps and sentences -/

section Steps

variable {σ : Type} [WordSource σ] {settings : Settings} {depth : Nat}
  {P : (v : Fin g.size) → Fin (g.network.get v).choices.length → Prop}

/-- A reference that may be left out is kept only above the greatest depth. -/
theorem yields_drawPresent (optional : Bool) :
    Drawing.Yields (drawPresent settings depth optional : Drawing σ Bool) fun present =>
      (present = true → optional = true → depth < settings.maxDepth) ∧
        (present = false → optional = true) := by
  rw [drawPresent]
  cases optional with
  | false => exact .pure ⟨fun _ h => absurd h Bool.false_ne_true, fun h => h.symm⟩
  | true =>
    rw [Bool.not_true, if_neg Bool.false_ne_true]
    split
    · exact .pure ⟨fun h => absurd h Bool.false_ne_true, fun _ => rfl⟩
    · next hdepth =>
      intro source
      obtain ⟨present, source', hrun, -⟩ := yields_drawBool settings.optionalProbability source
      exact ⟨present, source', hrun, fun _ _ => Nat.lt_of_not_le hdepth, fun _ => rfl⟩

/-- The tokens drawn for a step are those of a decision. -/
theorem yields_drawStep {expand : Fin g.size → Drawing σ Expansion} (s : Step g.size)
    (hexpand : ∀ target optional, s = .reference target optional →
      (optional = true → depth < settings.maxDepth) →
      Drawing.Yields (expand target) fun e =>
        ∃ d : Derivation g.network target, d.expansion = e ∧ d.All P) :
    Drawing.Yields (g.drawStep settings expand depth s) fun tokens =>
      ∃ d : Decision g.network s, d.tokens = tokens ∧ d.All P := by
  match s, hexpand with
  | .words words false, _ => exact .pure ⟨.keepWords, rfl, trivial⟩
  | .words words true, _ =>
    refine (yields_drawBool settings.optionalProbability).bind fun present _ => .pure ?_
    cases present with
    | true => exact ⟨.keepWords, rfl, trivial⟩
    | false => exact ⟨.dropWords, rfl, trivial⟩
  | .reference target optional, hexpand =>
    refine (yields_drawPresent optional).bind fun present hpresent => ?_
    cases present with
    | true =>
      refine (hexpand target optional rfl (hpresent.1 rfl)).bind fun e he => .pure ?_
      obtain ⟨d, rfl, hd⟩ := he
      exact ⟨.keep d, Decision.tokens_keep d, hd⟩
    | false =>
      obtain rfl := hpresent.2 rfl
      exact .pure ⟨.drop, rfl, trivial⟩

/-- The tokens drawn for steps are those of decisions. -/
theorem yields_drawSteps {expand : Fin g.size → Drawing σ Expansion} (steps : List (Step g.size))
    (hexpand : ∀ target optional, Step.reference target optional ∈ steps →
      (optional = true → depth < settings.maxDepth) →
      Drawing.Yields (expand target) fun e =>
        ∃ d : Derivation g.network target, d.expansion = e ∧ d.All P) :
    Drawing.Yields (steps.mapM (g.drawStep settings expand depth)) fun parts =>
      ∃ ds : Decisions g.network steps, ds.tokens = parts.flatten ∧ ds.All P := by
  induction steps with
  | nil =>
    rw [List.mapM_nil]
    exact .pure ⟨.nil, rfl, trivial⟩
  | cons s steps ih =>
    rw [List.mapM_cons]
    have hs := yields_drawStep s fun target optional hs =>
      hexpand target optional (hs ▸ List.mem_cons_self)
    have hsteps := ih fun target optional ht =>
      hexpand target optional (List.mem_cons_of_mem s ht)
    refine hs.bind fun tokens hd => hsteps.bind fun parts hds => .pure ?_
    obtain ⟨d, rfl, hd⟩ := hd
    obtain ⟨ds, htokens, hds⟩ := hds
    refine ⟨.cons d ds, ?_, hd, hds⟩
    rw [Decisions.tokens, htokens, List.flatten_cons]

end Steps

/-! ### Levels of nesting -/

/-- The levels left are enough at a depth: above the greatest depth for all levels down to there
and a path through all definitions, and from there on for the required references ahead. -/
def Enough (g : Graph) (settings : Settings) (fuel depth : Nat) (v : Fin g.size) : Prop :=
  settings.maxDepth - depth + g.size ≤ fuel ∨
    settings.maxDepth ≤ depth ∧ descent g.network.Requires v < fuel

theorem Valid.descent_lt_size (hg : g.Valid) (v : Fin g.size) :
    descent g.network.Requires v < g.size := by
  have h := descent_lt_card (hg.circles v)
  rwa [Nat.card_fin] at h

theorem Enough.pos {settings : Settings} {fuel depth : Nat} (h : g.Enough settings fuel depth v) :
    0 < fuel := by
  have hsize : 0 < g.size := v.pos
  rcases h with h | ⟨-, h⟩
  · omega
  · omega

/-- To follow a reference leaves enough levels. -/
theorem Enough.next (hg : g.Valid) {settings : Settings} {fuel depth : Nat}
    (h : g.Enough settings (fuel + 1) depth v) {w : Fin g.size} {optional : Bool}
    (hlink : ∃ c ∈ (g.network.get v).choices, Step.reference w optional ∈ c.steps)
    (hkeep : optional = true → depth < settings.maxDepth) :
    g.Enough settings fuel (depth + 1) w := by
  by_cases hdepth : depth < settings.maxDepth
  · -- one level down is one level of depth less
    refine .inl ?_
    rcases h with h | ⟨hdeep, -⟩
    · omega
    · omega
  · -- optional references are not followed here, and a required one leaves less ahead
    obtain rfl : optional = false := by
      cases optional with
      | false => rfl
      | true => exact absurd (hkeep rfl) hdepth
    have hrequires : g.network.Requires v w := hlink
    have hdescent := descent_lt_of_rel hrequires (hg.circles w)
    have hsize := hg.descent_lt_size v
    refine .inr ⟨by omega, ?_⟩
    rcases h with h | ⟨-, h⟩
    · omega
    · omega

/-! ### Definitions -/

section Definitions

variable {σ : Type} [WordSource σ] {settings : Settings}

/-- **What is drawn for a definition** is what a likely derivation says. -/
theorem Valid.yields_drawExpansion (hg : g.Valid) {fuel depth : Nat}
    (h : g.Enough settings fuel depth v) :
    Drawing.Yields (g.drawExpansion settings fuel depth v : Drawing σ Expansion) fun e =>
      ∃ d : Derivation g.network v, d.expansion = e ∧ d.All g.Likely := by
  induction fuel generalizing depth v with
  | zero => exact absurd h.pos (Nat.lt_irrefl 0)
  | succ fuel ih =>
    rw [drawExpansion]
    refine yields_drawUnit.bind fun roll _ => ?_
    obtain ⟨i, hroulette, hlikely⟩ := hg.exists_likely v roll
    rw [hroulette]
    have hsteps : Drawing.Yields (((g.network.get v).choices.get i).steps.mapM
        (g.drawStep settings (g.drawExpansion settings fuel (depth + 1)) depth :
          Step g.size → Drawing σ (List Token))) fun parts =>
        ∃ ds : Decisions g.network ((g.network.get v).choices.get i).steps,
          ds.tokens = parts.flatten ∧ ds.All g.Likely :=
      yields_drawSteps _ fun target optional ht hkeep =>
        ih (h.next hg ⟨_, List.get_mem _ i, ht⟩ hkeep)
    -- the sentence picked with the decisions drawn is the derivation
    refine hsteps.bind fun parts hds => .pure ?_
    obtain ⟨ds, htokens, hall⟩ := hds
    refine ⟨.choose i ds, ?_, hlikely, hall⟩
    rw [← htokens]
    rfl

theorem Valid.yields_drawUtterance (hg : g.Valid) (settings : Settings) (v : Fin g.size) :
    Drawing.Yields (g.drawUtterance settings v : Drawing σ Utterance) fun u =>
      ∃ d : Derivation g.network v, d.tokens = u ∧ d.All g.Likely := by
  have henough : g.Enough settings (settings.maxDepth + g.size) 0 v := .inl le_rfl
  refine (hg.yields_drawExpansion henough).bind fun e he => .pure ?_
  obtain ⟨d, rfl, hd⟩ := he
  exact ⟨d, rfl, hd⟩

end Definitions

end Graph

/-- **Whatever the random words are**, what is drawn for a definition is what one of its
derivations says, by sentences of positive probability where there are any; and if its derivations
can be enumerated, it is one of the utterances that the enumeration yields. -/
theorem samples_are_derivations {grammar : Grammar} {ceiling : Nat} {gen : Generator}
    (hbuild : Graph.build grammar ceiling = .ok gen.graph) {σ : Type} [WordSource σ]
    (v : Fin gen.graph.size) (source : σ) :
    ∃ (d : Derivation gen.graph.network v) (source' : σ),
      (gen.graph.drawUtterance gen.settings v).run source = some (d.tokens, source') ∧
      d.All gen.graph.Likely ∧
      ∀ paths, gen.graph.count v = .finite paths → paths < Cardinality.cap →
        d.tokens ∈ pulled (gen.pull? v) paths (.path 0) := by
  have hg := valid_of_build hbuild
  obtain ⟨u, source', hrun, d, rfl, hd⟩ := hg.yields_drawUtterance gen.settings v source
  refine ⟨d, source', hrun, hd, fun paths hcount hlt => ?_⟩
  obtain ⟨hv, rfl⟩ := few_of_count_eq hg hcount hlt
  obtain ⟨ds, -, -, hall, -, hpulled⟩ := exists_pulled_eq hg hv
  rw [hpulled]
  exact List.mem_map_of_mem (hall d)

/-- With a seed coffee is drawn, with all its words, which is one of the orders for a drink. -/
theorem sample_of_drinks :
    ∃ (d : Derivation Generator.drinks.graph.network (0 : Fin 4)) (source : ChaCha12.Generator),
      Graph.build .drinks 10000 = .ok Generator.drinks.graph ∧
      (Generator.drinks.graph.drawUtterance Generator.drinks.settings (0 : Fin 4)).run
        (ChaCha12.Generator.ofSeed 1) = some (d.tokens, source) ∧
      d.tokens = [.word "bring", .word "me", .entity "drink" "black coffee" (some "coffee")] ∧
      d.tokens ∈ pulled (Generator.drinks.pull? (0 : Fin 4)) 3 (.path 0) := by
  have hbuild : Graph.build .drinks 10000 = .ok Generator.drinks.graph := build_drinks
  have hcount : Generator.drinks.graph.count (0 : Fin 4) = .finite 3 := by decide +kernel
  have hcap : 3 < Cardinality.cap := by decide
  have hdrawn : ((Generator.drinks.graph.drawUtterance Generator.drinks.settings (0 : Fin 4)).run
      (ChaCha12.Generator.ofSeed 1)).map Prod.fst
        = some [.word "bring", .word "me", .entity "drink" "black coffee" (some "coffee")] := by
    decide +kernel
  obtain ⟨d, source, hrun, -, hpulled⟩ :=
    samples_are_derivations hbuild (0 : Fin 4) (ChaCha12.Generator.ofSeed 1)
  rw [hrun] at hdrawn
  exact ⟨d, source, hbuild, hrun, Option.some.inj hdrawn, hpulled 3 hcount hcap⟩

end IntentGrammar
