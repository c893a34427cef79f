import IntentGrammar.Proofs.Likeness
import IntentGrammar.Proofs.Sampling

/-!
# Definitions that say the same expand the same way

Between two graphs that are built with the same ceiling, definitions that correspond
(`Network.Alike`) have the same counts and the same probabilities, so what is drawn for them with
the same words is the same, and so are the expansions with the same number.

The graphs may have different numbers of definitions, and so expand with different numbers of
levels.  But levels only matter if there are too few: as long as there are enough on both sides,
how many there are does not show (`drawExpansion_eq`, `expandAt?_eq`).
-/

namespace IntentGrammar

open Relation

/-! ### Choosing between members that correspond -/

section Choosing

variable {α β : Type} {S : α → β → Prop}

/-- Members that correspond, each with the same companion. -/
def Paired {γ : Type} (S : α → β → Prop) (p : α × γ) (q : β × γ) : Prop := S p.1 q.1 ∧ p.2 = q.2

theorem forall₂_zip {γ : Type} {xs : List α} {ys : List β} (h : List.Forall₂ S xs ys)
    (zs : List γ) : List.Forall₂ (Paired S) (xs.zip zs) (ys.zip zs) := by
  induction h generalizing zs with
  | nil => exact .nil
  | cons hxy _ ih =>
    rcases zs with _ | ⟨z, zs⟩
    · exact .nil
    · exact .cons ⟨hxy, rfl⟩ (ih zs)

theorem mapM_eq_mapM_of_forall₂ {γ : Type} {M : Type → Type} [Monad M] [LawfulMonad M]
    {xs : List α} {ys : List β} {f : α → M γ} {g : β → M γ} (h : List.Forall₂ S xs ys)
    (hfg : ∀ x ∈ xs, ∀ y ∈ ys, S x y → f x = g y) : xs.mapM f = ys.mapM g := by
  have hf : (xs.map f).mapM id = xs.mapM f := List.mapM_map
  have hg : (ys.map g).mapM id = ys.mapM g := List.mapM_map
  rw [← hf, ← hg, map_eq_map_of_forall₂ h hfg]

variable {xs : List (α × Float)} {ys : List (β × Float)}

theorem rel_rouletteFrom {roll sum : Float} {last : Option α} {last' : Option β}
    (h : List.Forall₂ (Paired S) xs ys) (hlast : Option.Rel S last last') :
    Option.Rel S (rouletteFrom roll sum last xs) (rouletteFrom roll sum last' ys) := by
  induction h generalizing sum last last' with
  | nil => exact hlast
  | @cons p q xs ys hpq _ ih =>
    obtain ⟨a, weight⟩ := p
    obtain ⟨b, weight'⟩ := q
    obtain ⟨hab, rfl⟩ : S a b ∧ weight = weight' := hpq
    -- the sums are the same, so both stop at the same member
    rw [rouletteFrom, rouletteFrom]
    split
    · split
      · exact .some hab
      · exact ih (.some hab)
    · exact ih hlast

/-- With the same roll members that correspond are picked. -/
theorem rel_roulette (h : List.Forall₂ (Paired S) xs ys) (roll : Float) :
    Option.Rel S (roulette roll xs) (roulette roll ys) := by
  have hfrom : Option.Rel S (rouletteFrom roll 0.0 none xs) (rouletteFrom roll 0.0 none ys) :=
    rel_rouletteFrom h .none
  rw [roulette, roulette]
  generalize rouletteFrom roll 0.0 none xs = picked at hfrom
  generalize rouletteFrom roll 0.0 none ys = picked' at hfrom
  cases hfrom with
  | some hab => exact .some hab
  | none =>
    cases h with
    | nil => exact .none
    | cons hpq _ => exact .some hpq.1

/-- The same number falls into members that correspond. -/
theorem rel_locate? {n m : Nat} {S : Choice n → Choice m → Prop}
    {xs : List (Choice n × Cardinality)} {ys : List (Choice m × Cardinality)}
    (h : List.Forall₂ (Paired S) xs ys) (index : Nat) :
    Option.Rel (Paired S) (locate? xs index) (locate? ys index) := by
  induction h generalizing index with
  | nil => exact .none
  | @cons p q xs ys hpq _ ih =>
    obtain ⟨c, size⟩ := p
    obtain ⟨d, size'⟩ := q
    obtain ⟨hcd, rfl⟩ : S c d ∧ size = size' := hpq
    rw [locate?, locate?]
    split
    · exact .some ⟨hcd, rfl⟩
    · exact ih _

end Choosing

/-! ### Graphs -/

/-- The probabilities of a graph that is built are those that the counts and weights of each
definition give. -/
theorem probabilities_of_build {grammar : Grammar} {ceiling : Nat} {g : Graph}
    (h : Graph.build grammar ceiling = .ok g) (v : Fin g.size) :
    (g.node v).probabilities ceiling (g.network.tally v).sentences
      = .ok (g.probabilities.get v) := by
  obtain ⟨net, -, ps, hps, -, rfl⟩ := build_eq_ok_iff.mp h
  exact node_probabilities_get hps v

/-- The same arguments, weights and counts give the same probabilities. -/
theorem node_probabilities_eq {n m : Nat} {R : Fin n → Fin m → Prop} {v : Node n} {w : Node m}
    (h : Node.Alike R v w) (ceiling : Nat) (counts : List Cardinality) :
    v.probabilities ceiling counts = w.probabilities ceiling counts := by
  have hdistribution : v.distribution = w.distribution := by
    rw [Node.distribution, Node.distribution, h.arguments]
  have hweights : v.choices.map Choice.weight = w.choices.map Choice.weight :=
    map_eq_map_of_forall₂ h.choices fun _ _ _ _ hcd => hcd.weight
  rw [Node.probabilities, Node.probabilities, hdistribution, hweights, h.key]

variable {g g' : Graph} {R : Fin g.size → Fin g'.size → Prop}

/-- Two graphs with a correspondence between their definitions. -/
structure Graph.Alike (R : Fin g.size → Fin g'.size → Prop) : Prop where
  network : Network.Alike R g.network g'.network
  valid : g.Valid
  valid' : g'.Valid
  probabilities (v : Fin g.size) (w : Fin g'.size) :
    R v w → g.probabilities.get v = g'.probabilities.get w

/-- What says the same in two grammars does so in their graphs. -/
theorem alike_of_build {grammar grammar' : Grammar} {ceiling : Nat}
    (hbuild : Graph.build grammar ceiling = .ok g) (hbuild' : Graph.build grammar' ceiling = .ok g')
    (h : Network.Alike R g.network g'.network) : Graph.Alike R where
  network := h
  valid := valid_of_build hbuild
  valid' := valid_of_build hbuild'
  probabilities v w hR := by
    have hv := probabilities_of_build hbuild v
    have hw := probabilities_of_build hbuild' w
    have heq := node_probabilities_eq (h.nodes v w hR) ceiling (g'.network.tally w).sentences
    rw [h.tally_eq hR] at hv
    exact Except.ok.inj (hv.symm.trans (heq.trans hw))

namespace Graph.Alike

variable {v : Fin g.size} {w : Fin g'.size} {c : Choice g.size} {d : Choice g'.size}

theorem key_eq (h : Graph.Alike R) (hR : R v w) : (g.node v).key = (g'.node w).key :=
  (h.network.nodes v w hR).key

theorem count_eq (h : Graph.Alike R) (hR : R v w) : g.count v = g'.count w := by
  rw [h.valid.count_eq, h.valid'.count_eq, h.network.expansions_eq hR]

/-- Sentences of the definitions that correspond. -/
def Common (R : Fin g.size → Fin g'.size → Prop) (v : Fin g.size) (w : Fin g'.size)
    (c : Choice g.size) (d : Choice g'.size) : Prop :=
  (c ∈ (g.node v).choices ∧ d ∈ (g'.node w).choices) ∧ Choice.Alike R c d

/-- They stand with the same probabilities. -/
theorem weighted (h : Graph.Alike R) (hR : R v w) :
    List.Forall₂ (Paired (Common R v w)) (g.weighted v) (g'.weighted w) := by
  rw [Graph.weighted, Graph.weighted, h.probabilities v w hR]
  exact forall₂_zip (forall₂_and_mem (h.network.nodes v w hR).choices) _

/-- They stand with the same counts. -/
theorem counted (h : Graph.Alike R) (hR : R v w) :
    List.Forall₂ (Paired (Common R v w)) (g.counted v) (g'.counted w) := by
  rw [Graph.counted, Graph.counted, h.valid.counts, h.valid'.counts, h.network.tally_eq hR]
  exact forall₂_zip (forall₂_and_mem (h.network.nodes v w hR).choices) _

/-- The wording that a sentence gives to a value. -/
theorem synonym?_eq (h : Graph.Alike R) (hR : R v w) (hcd : Choice.Alike R c d) :
    g.synonym? v c = g'.synonym? w d := by
  rw [Graph.synonym?, Graph.synonym?, Network.synonym?, Network.synonym?, h.key_eq hR]
  -- only a single reference that cannot be left out spells a name
  cases (g'.node w).key.kind with
  | slot =>
    match c.steps, d.steps, hcd.steps with
    | [], [], _ => rfl
    | [_], [_], .cons (.words _ _) .nil => rfl
    | [_], [_], .cons (.reference _ true) .nil => rfl
    | [_], [_], .cons (.reference hR' false) .nil =>
      exact congrArg (some ∘ Key.name) (h.key_eq hR')
    | _ :: _ :: _, _ :: _ :: _, .cons (.words _ _) (.cons _ _) => rfl
    | _ :: _ :: _, _ :: _ :: _, .cons (.reference _ true) (.cons _ _) => rfl
    | _ :: _ :: _, _ :: _ :: _, .cons (.reference _ false) (.cons _ _) => rfl
  | intent => rfl
  | «alias» => rfl

/-! ### Drawing -/

section Drawing

variable {σ : Type} [WordSource σ] {settings : Settings}

/-- For steps that correspond the same is drawn, if it is for the definitions that are kept. -/
theorem drawStep_eq (h : Graph.Alike R) {depth : Nat} {expand : Fin g.size → Drawing σ Expansion}
    {expand' : Fin g'.size → Drawing σ Expansion} {s : Step g.size} {t : Step g'.size}
    (hst : Step.Alike R s t)
    (hexpand : ∀ target target' optional, s = .reference target optional →
      t = .reference target' optional → R target target' →
      (optional = true → depth < settings.maxDepth) → expand target = expand' target') :
    g.drawStep settings expand depth s = g'.drawStep settings expand' depth t := by
  cases hst with
  | words words optional => rfl
  | @reference target target' hR' optional =>
    by_cases hkeep : optional = true → depth < settings.maxDepth
    · rw [drawStep, drawStep, hexpand target target' optional rfl rfl hR' hkeep, h.key_eq hR']
    · -- neither is the reference kept, nor is a word drawn for it
      obtain ⟨rfl, hdepth⟩ := Classical.not_imp.mp hkeep
      have hdrop : (drawPresent settings depth true : Drawing σ Bool) = pure false :=
        if_pos (Nat.le_of_not_lt hdepth)
      rw [drawStep, drawStep, hdrop, pure_bind, pure_bind]
      rfl

/-- **What is drawn for definitions that correspond** is the same, as long as there are enough
levels on both sides. -/
theorem drawExpansion_eq (h : Graph.Alike R) {fuel fuel' depth : Nat} (hR : R v w)
    (hfuel : g.Enough settings fuel depth v) (hfuel' : g'.Enough settings fuel' depth w) :
    (g.drawExpansion settings fuel depth v : Drawing σ Expansion)
      = g'.drawExpansion settings fuel' depth w := by
  induction fuel generalizing fuel' depth v w with
  | zero => exact absurd hfuel.pos (Nat.lt_irrefl 0)
  | succ fuel ih =>
    obtain ⟨fuel', rfl⟩ := Nat.exists_eq_succ_of_ne_zero hfuel'.pos.ne'
    rw [drawExpansion, drawExpansion]
    refine congrArg (drawUnit >>= ·) (funext fun roll => ?_)
    -- with the same roll sentences that correspond are picked
    have hpicked := rel_roulette (h.weighted hR) roll
    generalize roulette roll (g.weighted v) = picked at hpicked
    generalize roulette roll (g'.weighted w) = picked' at hpicked
    cases hpicked with
    | none => rfl
    | @some c d hpick =>
      obtain ⟨⟨hc, hd⟩, hcd⟩ := hpick
      have hparts : (c.steps.mapM (g.drawStep settings (g.drawExpansion settings fuel (depth + 1))
            depth) : Drawing σ (List (List Token)))
          = d.steps.mapM (g'.drawStep settings (g'.drawExpansion settings fuel' (depth + 1))
            depth) := by
        refine mapM_eq_mapM_of_forall₂ hcd.steps fun s hs t ht hst => h.drawStep_eq hst ?_
        rintro target target' optional rfl rfl hR' hkeep
        -- what is kept has enough levels on both sides
        exact ih hR' (hfuel.next h.valid ⟨c, hc, hs⟩ hkeep)
          (hfuel'.next h.valid' ⟨d, hd, ht⟩ hkeep)
      show (do
          let parts ← c.steps.mapM (g.drawStep settings (g.drawExpansion settings fuel (depth + 1))
            depth)
          return ⟨parts.flatten, g.synonym? v c⟩ : Drawing σ Expansion) = _
      rw [hparts, h.synonym?_eq hR hcd]

theorem drawUtterance_eq (h : Graph.Alike R) (hR : R v w) (settings : Settings) :
    (g.drawUtterance settings v : Drawing σ Utterance) = g'.drawUtterance settings w := by
  have henough : g.Enough settings (settings.maxDepth + g.size) 0 v := .inl le_rfl
  have henough' : g'.Enough settings (settings.maxDepth + g'.size) 0 w := .inl le_rfl
  rw [drawUtterance, drawUtterance, h.drawExpansion_eq hR henough henough']

end Drawing

/-! ### Expanding by number -/

section Numbers

/-- Steps that correspond have the same radix. -/
theorem radix_eq (h : Graph.Alike R) {s : Step g.size} {t : Step g'.size}
    (hst : Step.Alike R s t) : g.radix s = g'.radix t := by
  have hcount : s.count g.count = t.count g'.count :=
    count_step_eq hst fun _ _ _ _ hR' => h.count_eq hR'
  rw [radix, radix, hcount]

/-- Steps that correspond have the same tokens with a digit, if the definitions have. -/
theorem stepAt?_eq (h : Graph.Alike R) {expand : Fin g.size → Nat → Option Expansion}
    {expand' : Fin g'.size → Nat → Option Expansion} {s : Step g.size} {t : Step g'.size}
    (hst : Step.Alike R s t)
    (hexpand : ∀ target target' optional, s = .reference target optional →
      t = .reference target' optional → R target target' → expand target = expand' target')
    (digit : Nat) : g.stepAt? expand s digit = g'.stepAt? expand' t digit := by
  cases hst with
  | words words optional => rfl
  | @reference target target' hR' optional =>
    rw [stepAt?, stepAt?, h.count_eq hR', hexpand target target' optional rfl rfl hR',
      h.key_eq hR']

/-- **The expansions with the same number** of definitions that correspond are the same, as long as
there are levels for what is ahead on both sides. -/
theorem expandAt?_eq (h : Graph.Alike R) {fuel fuel' : Nat} (hR : R v w)
    (hv : ¬ g.network.Loops v) (hfuel : descent g.network.Refers v < fuel)
    (hfuel' : descent g'.network.Refers w < fuel') :
    g.expandAt? fuel v = g'.expandAt? fuel' w := by
  induction fuel generalizing fuel' v w with
  | zero => exact absurd hfuel (Nat.not_lt_zero _)
  | succ fuel ih =>
    obtain ⟨fuel', rfl⟩ := Nat.exists_eq_succ_of_ne_zero (Nat.ne_zero_of_lt hfuel')
    have hw : ¬ g'.network.Loops w := fun hw => hv ((h.network.loops_iff hR).mpr hw)
    funext index
    rw [expandAt?, expandAt?]
    -- the number falls into sentences that correspond
    have hlocated := rel_locate? (h.counted hR) index
    generalize locate? (g.counted v) index = located at hlocated
    generalize locate? (g'.counted w) index = located' at hlocated
    cases hlocated with
    | none => rfl
    | @some p q hlocate =>
      obtain ⟨c, index⟩ := p
      obtain ⟨d, index'⟩ := q
      obtain ⟨⟨⟨hc, hd⟩, hcd⟩, rfl⟩ := hlocate
      have hradices : c.steps.map g.radix = d.steps.map g'.radix :=
        map_eq_map_of_forall₂ hcd.steps fun _ _ _ _ hst => h.radix_eq hst
      have hparts (digits : List Nat) :
          ((c.steps.zip digits).mapM fun p => g.stepAt? (g.expandAt? fuel) p.1 p.2)
            = (d.steps.zip digits).mapM fun q => g'.stepAt? (g'.expandAt? fuel') q.1 q.2 := by
        refine mapM_eq_mapM_of_forall₂ (forall₂_zip (forall₂_and_mem hcd.steps) digits) ?_
        rintro ⟨s, digit⟩ - ⟨t, digit'⟩ - ⟨⟨⟨hs, ht⟩, hst⟩, hdigit⟩
        obtain rfl : digit = digit' := hdigit
        refine h.stepAt?_eq hst ?_ digit
        rintro target target' optional rfl rfl hR'
        have hrefers : g.network.Refers v target := ⟨c, hc, optional, hs⟩
        have hrefers' : g'.network.Refers w target' := ⟨d, hd, optional, ht⟩
        have hdescent := Network.descent_lt_of_refers hv hrefers
        have hdescent' := Network.descent_lt_of_refers hw hrefers'
        exact ih hR' (Network.not_loops_of_refers hv hrefers) (by omega) (by omega)
      show ((c.steps.zip (mixedDigits (c.steps.map g.radix) index).1).mapM
          fun p => g.stepAt? (g.expandAt? fuel) p.1 p.2).bind
            (fun parts => some (Expansion.mk parts.flatten (g.synonym? v c))) = _
      rw [hradices, hparts, h.synonym?_eq hR hcd]
      rfl

theorem utteranceAt?_eq (h : Graph.Alike R) (hR : R v w) (hv : ¬ g.network.Loops v) (index : Nat) :
    g.utteranceAt? v index = g'.utteranceAt? w index := by
  have hw : ¬ g'.network.Loops w := fun hw => hv ((h.network.loops_iff hR).mpr hw)
  rw [utteranceAt?, utteranceAt?, h.expandAt?_eq hR hv (Network.descent_lt_of_not_loops hv)
    (Network.descent_lt_of_not_loops hw)]

end Numbers

end Graph.Alike

end IntentGrammar
