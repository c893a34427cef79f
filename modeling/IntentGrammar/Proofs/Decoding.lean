import IntentGrammar.Expansion.Enumeration
import IntentGrammar.Proofs.Cardinalities
import IntentGrammar.Proofs.Numbering

/-!
# Expansion by number

A definition with fewer derivations than the largest number that is counted has an exact count, and
so has everything below it, since nothing below it has more (`Network.Few`).  Then the radices used
to take a number apart are those that `Derivation.number` puts it together with: to expand by the
number of a derivation gives what the derivation says (`expandAt?_number`).

Since every number below the count is that of a derivation, no number that is called for on the way
is without a sentence: that is `Finds` at the end of any chain of `Calls`.
-/

namespace IntentGrammar

open Relation

variable {n : Nat} {net : Network n} {v w : Fin n} {s : Step n} {steps : List (Step n)}

/-! ### Few derivations -/

/-- Finitely many derivations, less than the largest number that is counted. -/
def Network.Few (net : Network n) (v : Fin n) : Prop :=
  ¬ net.Loops v ∧ Nat.card (Derivation net v) < Cardinality.cap

/-- Finitely many decisions for steps. -/
def Network.FewDecisions (net : Network n) (steps : List (Step n)) : Prop :=
  ¬ net.Leads steps ∧ Nat.card (Decisions net steps) < Cardinality.cap

/-- Finitely many decisions for one step. -/
def Network.FewDecision (net : Network n) (s : Step n) : Prop :=
  net.Plain s ∧ Nat.card (Decision net s) < Cardinality.cap

theorem Network.Few.sentence (hv : net.Few v) (i : Fin (net.get v).choices.length) :
    net.FewDecisions ((net.get v).choices.get i).steps := by
  refine ⟨not_leads_of_not_loops hv.1 i, lt_of_le_of_lt ?_ hv.2⟩
  exact (Nat.le_add_left _ _).trans (offset_add_le hv.1 i)

theorem Network.FewDecision.target {target : Fin n} {optional : Bool}
    (hs : net.FewDecision (.reference target optional)) : net.Few target := by
  have hloops := hs.1 target optional rfl
  refine ⟨hloops, lt_of_le_of_lt ?_ hs.2⟩
  rw [card_decision_reference hloops]
  exact Nat.le_add_right _ _

section Nonempty

variable (hne : ∀ v, Nonempty (Derivation net v))

include hne

theorem card_decision_pos (hs : net.Plain s) : 0 < Nat.card (Decision net s) := by
  have := nonempty_decision fun target (_ : s = .reference target false) => hne target
  have := finite_decision fun target optional h => finite_of_not_loops (hs target optional h)
  exact Nat.card_pos

theorem card_decisions_pos (h : ¬ net.Leads steps) : 0 < Nat.card (Decisions net steps) := by
  have : Nonempty (Decisions net steps) := nonempty_decisions fun target _ => hne target
  have := finite_of_not_leads h
  exact Nat.card_pos

/-- Where there are few decisions for steps, there are few for each of them. -/
theorem Network.FewDecisions.cons (h : net.FewDecisions (s :: steps)) :
    net.FewDecision s ∧ net.FewDecisions steps := by
  obtain ⟨hs, hsteps⟩ := not_leads_cons_iff.mp h.1
  have hcard := h.2
  rw [card_decisions_cons] at hcard
  have hfirst := Nat.le_mul_of_pos_right (Nat.card (Decision net s)) (card_decisions_pos hne hsteps)
  have hrest := Nat.le_mul_of_pos_left (Nat.card (Decisions net steps)) (card_decision_pos hne hs)
  exact ⟨⟨hs, hfirst.trans_lt hcard⟩, hsteps, hrest.trans_lt hcard⟩

end Nonempty

/-! ### Taking numbers apart -/

/-- The digits of decisions, in order. -/
noncomputable def Decisions.digits : {steps : List (Step n)} → Decisions net steps → List Nat
  | _, .nil => []
  | _, .cons d ds => d.digit :: ds.digits

/-- A number falls into the sentence that has room for it. -/
theorem locate?_append {before after : List (Choice n × Cardinality)} {c : Choice n}
    {size : Cardinality} {r : Nat} (hr : r < size.toNat) :
    locate? (before ++ (c, size) :: after) ((before.map fun p => p.2.toNat).sum + r)
      = some (c, r) := by
  induction before with
  | nil =>
    rw [List.map_nil, List.sum_nil, Nat.zero_add, List.nil_append, locate?, if_pos hr]
  | cons p before ih =>
    rw [List.map_cons, List.sum_cons, List.cons_append, locate?, Nat.add_assoc,
      if_neg (by omega), Nat.add_sub_cancel_left]
    exact ih

namespace Graph

variable {g : Graph} {v : Fin g.size} {s : Step g.size} {steps : List (Step g.size)}

/-- The sentences stand with the counts that follow from those of the definitions. -/
theorem Valid.counted_eq (hg : g.Valid) (v : Fin g.size) :
    g.counted v = (g.network.get v).choices.map fun c => (c, c.count g.network.expansions) := by
  rw [counted, hg.counts, Network.tally]
  exact List.map_prod_left_eq_zip.symm

/-- Few derivations are counted exactly. -/
theorem Valid.toNat_count (hg : g.Valid) (hv : g.network.Few v) :
    (g.count v).toNat = Nat.card (Derivation g.network v) := by
  rw [hg.count_eq, expansions_of_not_loops hv.1, Cardinality.toNat_ofNat hv.2]

theorem Valid.count_eq_expansions (hg : g.Valid) : g.count = g.network.expansions :=
  funext hg.count_eq

/-- The radix of a step is the number of its decisions. -/
theorem Valid.radix_eq (hg : g.Valid) (hs : g.network.FewDecision s) :
    g.radix s = Nat.card (Decision g.network s) := by
  rw [radix, hg.count_eq_expansions, count_step_expansions hs.1, Cardinality.toNat_ofNat hs.2]

theorem Valid.toNat_count_pos (hg : g.Valid) (v : Fin g.size) : 0 < (g.count v).toNat := by
  rw [hg.count_eq]
  by_cases hv : g.network.Loops v
  · rw [expansions_of_loops hv]
    decide
  · have := finite_of_not_loops hv
    have := hg.nonempty v
    have hcard : 0 < Nat.card (Derivation g.network v) := Nat.card_pos
    rw [expansions_of_not_loops hv]
    exact lt_min hcard (by decide)

/-- No radix is zero. -/
theorem Valid.radix_pos (hg : g.Valid) (s : Step g.size) : 0 < g.radix s := by
  match s with
  | .words words false => exact Nat.one_pos
  | .words words true => exact Nat.two_pos
  | .reference target false => exact hg.toNat_count_pos target
  | .reference target true =>
    rw [radix, Step.count_reference, if_pos rfl]
    rcases g.count target with k | _
    · exact lt_min (Nat.succ_pos k) (by decide)
    · decide

/-- The digits of a number are those of the decisions that it is the number of, and nothing is
carried out but what was put in front. -/
theorem Valid.mixedDigits_number (hg : g.Valid) (h : g.network.FewDecisions steps)
    (ds : Decisions g.network steps) (k : Nat) :
    mixedDigits (steps.map g.radix) (k * Nat.card (Decisions g.network steps) + ds.number)
      = (ds.digits, k) := by
  induction steps generalizing k with
  | nil =>
    cases ds
    rw [Nat.card_congr (Decisions.equivUnit g.network), Nat.card_unique, Decisions.number,
      Nat.mul_one]
    rfl
  | cons s steps ih =>
    cases ds with
    | cons d ds =>
      obtain ⟨hs, hsteps⟩ := h.cons hg.nonempty
      have hd : d.digit < g.radix s := by
        rw [hg.radix_eq hs]
        exact d.digit_lt hs.1
      -- in front of the number of the rest stands `k` with the first digit behind it
      have hnumber : k * Nat.card (Decisions g.network (s :: steps)) + (Decisions.cons d ds).number
          = (k * g.radix s + d.digit) * Nat.card (Decisions g.network steps) + ds.number := by
        rw [card_decisions_cons, hg.radix_eq hs, Decisions.number]
        ring
      rw [hnumber, List.map_cons, mixedDigits, ih hsteps, Decisions.digits]
      have hmod : (k * g.radix s + d.digit) % g.radix s = d.digit := by
        rw [Nat.mul_add_mod_of_lt hd]
      have hdiv : (k * g.radix s + d.digit) / g.radix s = k := by
        rw [Nat.mul_comm, Nat.mul_add_div (hg.radix_pos s), Nat.div_eq_of_lt hd, Nat.add_zero]
      show ((k * g.radix s + d.digit) % g.radix s :: ds.digits,
        (k * g.radix s + d.digit) / g.radix s) = _
      rw [hmod, hdiv]

/-- A derivation is found by its number: its sentence, and the number among those of its sentence.
No count of an earlier sentence is larger than what it is taken from. -/
theorem Valid.exists_counted_eq (hg : g.Valid) (hv : g.network.Few v)
    (i : Fin (g.network.get v).choices.length) :
    ∃ before size after, g.counted v = before ++ ((g.network.get v).choices.get i, size) :: after ∧
      (before.map fun p => p.2.toNat).sum = g.network.offset v i ∧
      size.toNat = Nat.card (Decisions g.network ((g.network.get v).choices.get i).steps) := by
  have hcount : ∀ j : Fin (g.network.get v).choices.length,
      (((g.network.get v).choices.get j).count g.network.expansions).toNat
        = Nat.card (Decisions g.network ((g.network.get v).choices.get j).steps) := by
    intro j
    have hfew : g.network.FewDecisions ((g.network.get v).choices.get j).steps := hv.sentence j
    rw [count_choice_expansions hfew.1]
    exact Cardinality.toNat_ofNat hfew.2
  have hsplit : (g.network.get v).choices = (g.network.get v).choices.take i
      ++ (g.network.get v).choices.get i :: (g.network.get v).choices.drop (i + 1) := by
    rw [List.get_eq_getElem, List.getElem_cons_drop, List.take_append_drop]
  let withCount (c : Choice g.size) := (c, c.count g.network.expansions)
  have hcounted : g.counted v = ((g.network.get v).choices.take i).map withCount
      ++ withCount ((g.network.get v).choices.get i) :: ((g.network.get v).choices.drop (i + 1)).map withCount := by
    rw [hg.counted_eq]
    conv_lhs => rw [hsplit]
    rw [List.map_append, List.map_cons]
  refine ⟨_, _, _, hcounted, ?_, hcount i⟩
  rw [List.map_map, Network.offset]
  refine congrArg List.sum (List.map_congr_left fun c hc => ?_)
  obtain ⟨j, rfl⟩ := List.get_of_mem (List.mem_of_mem_take hc)
  exact hcount j

/-! ### Expanding by number -/

/-- A step with the digit of a decision says what the decision says, if the definition referred to
is expanded by number as it should be. -/
theorem Valid.stepAt?_digit (hg : g.Valid) {expand : Fin g.size → Nat → Option Expansion}
    (hs : g.network.FewDecision s) (d : Decision g.network s)
    (hexpand : ∀ target optional, s = .reference target optional →
      ∀ e : Derivation g.network target, expand target e.number = some e.expansion) :
    g.stepAt? expand s d.digit = some d.tokens := by
  match s, hs, d, hexpand with
  | .words words false, _, .keepWords, _ => rfl
  | .words words true, _, .keepWords, _ => rfl
  | .words words true, _, .dropWords, _ => rfl
  | .reference target optional, hs, .keep d, hexpand =>
    have hd : (d.number == (g.count target).toNat) = false := by
      rw [hg.toNat_count hs.target, beq_eq_false_iff_ne]
      exact (d.number_lt hs.target.1).ne
    rw [Decision.digit, stepAt?, hd, Bool.and_false, if_neg Bool.false_ne_true,
      hexpand target optional rfl d, Decision.tokens_keep]
    rfl
  | .reference target true, hs, .drop, _ =>
    have hdrop : (Nat.card (Derivation g.network target) == (g.count target).toNat) = true := by
      rw [hg.toNat_count hs.target, beq_self_eq_true]
    rw [Decision.digit, stepAt?, hdrop, Bool.and_self, if_pos rfl]
    rfl

/-- Steps with the digits of decisions say what the decisions say. -/
theorem Valid.exists_mapM_stepAt? (hg : g.Valid) {expand : Fin g.size → Nat → Option Expansion}
    (h : g.network.FewDecisions steps) (ds : Decisions g.network steps)
    (hexpand : ∀ target optional, Step.reference target optional ∈ steps →
      ∀ e : Derivation g.network target, expand target e.number = some e.expansion) :
    ∃ parts, (steps.zip ds.digits).mapM (fun (step, digit) => g.stepAt? expand step digit)
      = some parts ∧ parts.flatten = ds.tokens := by
  induction steps with
  | nil =>
    cases ds
    exact ⟨[], rfl, rfl⟩
  | cons s steps ih =>
    cases ds with
    | cons d ds =>
      obtain ⟨hs, hsteps⟩ := h.cons hg.nonempty
      obtain ⟨parts, hparts, htokens⟩ := ih hsteps ds fun target optional ht =>
        hexpand target optional (List.mem_cons_of_mem s ht)
      have hd := hg.stepAt?_digit hs d fun target optional hs =>
        hexpand target optional (hs ▸ List.mem_cons_self)
      refine ⟨d.tokens :: parts, ?_, ?_⟩
      · simp only [Decisions.digits, List.zip_cons_cons, List.mapM_cons, hd, hparts]
        rfl
      · rw [List.flatten_cons, htokens, Decisions.tokens]

/-- A number falls into the sentence of the derivation that it is the number of. -/
theorem Valid.locate?_number (hg : g.Valid) (hv : g.network.Few v)
    (i : Fin (g.network.get v).choices.length)
    (ds : Decisions g.network ((g.network.get v).choices.get i).steps) :
    locate? (g.counted v) (Derivation.choose i ds : Derivation g.network v).number
      = some ((g.network.get v).choices.get i, ds.number) := by
  obtain ⟨before, size, after, hcounted, hoffset, hsize⟩ := hg.exists_counted_eq hv i
  rw [hcounted, Derivation.number, ← hoffset]
  refine locate?_append ?_
  rw [hsize]
  exact ds.number_lt (hv.sentence i).1

theorem Valid.mixedDigits_sentence (hg : g.Valid) (h : g.network.FewDecisions steps)
    (ds : Decisions g.network steps) :
    mixedDigits (steps.map g.radix) ds.number = (ds.digits, 0) := by
  have hdigits := hg.mixedDigits_number h ds 0
  rwa [Nat.zero_mul, Nat.zero_add] at hdigits

theorem Valid.few_of_refers (hg : g.Valid) (hv : g.network.Few v) {w : Fin g.size}
    (h : g.network.Refers v w) : g.network.Few w := by
  obtain ⟨c, hc, optional, hs⟩ := h
  obtain ⟨i, rfl⟩ := List.get_of_mem hc
  have hsteps : ∀ steps, g.network.FewDecisions steps → Step.reference w optional ∈ steps →
      g.network.Few w := by
    intro steps hfew hs
    induction steps with
    | nil => exact absurd hs List.not_mem_nil
    | cons s steps ih =>
      obtain ⟨hfirst, hrest⟩ := hfew.cons hg.nonempty
      rcases List.mem_cons.mp hs with rfl | hs
      · exact hfirst.target
      · exact ih hrest hs
  exact hsteps _ (hv.sentence i) hs

/-- **To expand by the number of a derivation** gives what the derivation says. -/
theorem Valid.expandAt?_number (hg : g.Valid) (fuel : Nat) (hv : g.network.Few v)
    (hfuel : descent g.network.Refers v < fuel) (d : Derivation g.network v) :
    g.expandAt? fuel v d.number = some d.expansion := by
  induction fuel generalizing v with
  | zero => exact absurd hfuel (Nat.not_lt_zero _)
  | succ fuel ih =>
    obtain ⟨i, ds⟩ := d
    have hexpand : ∀ target optional,
        Step.reference target optional ∈ ((g.network.get v).choices.get i).steps →
        ∀ e : Derivation g.network target,
          g.expandAt? fuel target e.number = some e.expansion := by
      intro target optional ht
      -- targets have less ahead of them, so one level less is enough
      have hrefers : g.network.Refers v target := ⟨_, List.get_mem _ i, optional, ht⟩
      have hdescent := Network.descent_lt_of_refers hv.1 hrefers
      exact ih (hg.few_of_refers hv hrefers) (by omega)
    obtain ⟨parts, hparts, htokens⟩ := hg.exists_mapM_stepAt? (hv.sentence i) ds hexpand
    -- the sentence is found, its number is taken apart, and the steps are expanded
    rw [expandAt?, hg.locate?_number hv i ds]
    show ((((g.network.get v).choices.get i).steps.zip
        (mixedDigits (((g.network.get v).choices.get i).steps.map g.radix) ds.number).1).mapM
        fun (step, digit) => g.stepAt? (g.expandAt? fuel) step digit).bind _ = _
    rw [hg.mixedDigits_sentence (hv.sentence i) ds]
    rw [hparts]
    show some (Expansion.mk parts.flatten _) = _
    rw [htokens]
    rfl

theorem Valid.utteranceAt?_number (hg : g.Valid) (hv : g.network.Few v)
    (d : Derivation g.network v) : g.utteranceAt? v d.number = some d.tokens := by
  rw [utteranceAt?, hg.expandAt?_number g.size hv (Network.descent_lt_of_not_loops hv.1) d]
  rfl

/-! ### Nothing fails on the way -/

/-- A number of a definition is found: it is what the sentences before one count, none of which is
larger than what it is taken from, and a number below the count of that sentence.  No radix of the
steps of the sentence is zero, and nothing is carried out. -/
def Finds (g : Graph) (v : Fin g.size) (k : Nat) : Prop :=
  ∃ before c size after r, g.counted v = before ++ (c, size) :: after ∧
    k = (before.map fun p => p.2.toNat).sum + r ∧ r < size.toNat ∧
    locate? (g.counted v) k = some (c, r) ∧ (∀ s ∈ c.steps, 0 < g.radix s) ∧
    (mixedDigits (c.steps.map g.radix) r).2 = 0

/-- To expand a definition by a number calls for the expansion of another one by a number. -/
def Calls (g : Graph) (a b : Fin g.size × Nat) : Prop :=
  ∃ c r optional, locate? (g.counted a.1) a.2 = some (c, r) ∧
    (Step.reference b.1 optional, b.2) ∈ c.steps.zip (mixedDigits (c.steps.map g.radix) r).1 ∧
    (optional && b.2 == (g.count b.1).toNat) = false

theorem Valid.finds (hg : g.Valid) (hv : g.network.Few v) {k : Nat}
    (hk : k < Nat.card (Derivation g.network v)) : g.Finds v k := by
  obtain ⟨⟨i, ds⟩, rfl⟩ := exists_number_eq hv.1 hk
  obtain ⟨before, size, after, hcounted, hoffset, hsize⟩ := hg.exists_counted_eq hv i
  have hlt : ds.number < size.toNat := by
    rw [hsize]
    exact ds.number_lt (hv.sentence i).1
  have hdigits := hg.mixedDigits_sentence (hv.sentence i) ds
  refine ⟨before, _, size, after, ds.number, hcounted, ?_, hlt, hg.locate?_number hv i ds,
    fun s _ => hg.radix_pos s, ?_⟩
  · rw [hoffset, Derivation.number]
  · rw [hdigits]

/-- The digit of a reference is a number of its target, unless it stands for dropping it. -/
theorem Valid.digit_lt_of_mem (hg : g.Valid) (h : g.network.FewDecisions steps)
    (ds : Decisions g.network steps) {w : Fin g.size} {optional : Bool} {j : Nat}
    (hmem : (Step.reference w optional, j) ∈ steps.zip ds.digits)
    (hkeep : (optional && j == (g.count w).toNat) = false) :
    g.network.Few w ∧ j < Nat.card (Derivation g.network w) := by
  induction steps with
  | nil => exact absurd hmem List.not_mem_nil
  | cons s steps ih =>
    obtain ⟨hs, hsteps⟩ := h.cons hg.nonempty
    cases ds with
    | cons d ds =>
      rw [Decisions.digits, List.zip_cons_cons] at hmem
      rcases List.mem_cons.mp hmem with heq | hmem
      · obtain ⟨rfl, rfl⟩ := Prod.mk.inj heq
        refine ⟨hs.target, ?_⟩
        cases d with
        | keep d => exact d.number_lt hs.target.1
        | drop =>
          -- the digit of dropping is the one that is not expanded
          rw [Decision.digit, hg.toNat_count hs.target, beq_self_eq_true] at hkeep
          cases hkeep
      · exact ih hsteps ds hmem

theorem Valid.few_of_calls (hg : g.Valid) (hv : g.network.Few v) {k : Nat}
    (hk : k < Nat.card (Derivation g.network v)) {b : Fin g.size × Nat} (h : g.Calls (v, k) b) :
    g.network.Few b.1 ∧ b.2 < Nat.card (Derivation g.network b.1) := by
  obtain ⟨⟨i, ds⟩, rfl⟩ := exists_number_eq hv.1 hk
  obtain ⟨c, r, optional, hlocate, hmem, hkeep⟩ := h
  obtain ⟨rfl, rfl⟩ := Prod.mk.inj (Option.some.inj ((hg.locate?_number hv i ds).symm.trans hlocate))
  rw [hg.mixedDigits_sentence (hv.sentence i) ds] at hmem
  exact hg.digit_lt_of_mem (hv.sentence i) ds hmem hkeep

/-- **Every number that is called for** on the way is found. -/
theorem Valid.finds_of_calls (hg : g.Valid) (hv : g.network.Few v) {k : Nat}
    (hk : k < Nat.card (Derivation g.network v)) {w : Fin g.size} {j : Nat}
    (h : ReflTransGen g.Calls (v, k) (w, j)) : g.Finds w j := by
  -- every call is for a number of a definition with few derivations, from the first one on
  have hcall : ∀ b, ReflTransGen g.Calls (v, k) b →
      g.network.Few b.1 ∧ b.2 < Nat.card (Derivation g.network b.1) := by
    intro b hb
    induction hb with
    | refl => exact ⟨hv, hk⟩
    | tail _ hstep ih => exact hg.few_of_calls ih.1 ih.2 hstep
  obtain ⟨hw, hj⟩ := hcall _ h
  exact hg.finds hw hj

end Graph

end IntentGrammar
