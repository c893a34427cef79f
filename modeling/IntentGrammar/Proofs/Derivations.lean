import IntentGrammar.Expansion.Basic
import IntentGrammar.Proofs.References

/-!
# Derivations

A derivation of a definition is a complete record of how it can be expanded: the sentence chosen,
for every step of it in order whether the step is kept, and for every reference that is kept a
derivation of its target.  Nothing here is about numbers, random words or search: derivations are
what enumeration lists, what counting counts and what sampling draws.

* `Derivation.tokens` is what a derivation says: words as they are, what an alias says in the place
  of the reference, and what a slot says as one entity, or not at all if it says nothing.
* `Derivation.Before` is the order of the grammar: the earlier sentence first, then the earlier
  steps before the later ones, and a part that is kept before the same part dropped.
* `Derivation.All` says that all sentences chosen have a property.
-/

namespace IntentGrammar

variable {n : Nat}

mutual

/-- A sentence of `v`, and a decision for each of its steps. -/
inductive Derivation (net : Network n) : Fin n → Type
  | choose {v : Fin n} (i : Fin (net.get v).choices.length)
      (decisions : Decisions net ((net.get v).choices.get i).steps) : Derivation net v

/-- Decisions for steps in order. -/
inductive Decisions (net : Network n) : List (Step n) → Type
  | nil : Decisions net []
  | cons {s : Step n} {steps : List (Step n)} (d : Decision net s) (ds : Decisions net steps) :
      Decisions net (s :: steps)

/-- Keep a step or, if it is optional, drop it.  A reference that is kept is expanded. -/
inductive Decision (net : Network n) : Step n → Type
  | keepWords {words : List String} {optional : Bool} : Decision net (.words words optional)
  | dropWords {words : List String} : Decision net (.words words true)
  | keep {target : Fin n} {optional : Bool} (d : Derivation net target) :
      Decision net (.reference target optional)
  | drop {target : Fin n} : Decision net (.reference target true)

end

variable {net : Network n} {v w : Fin n} {s : Step n} {steps : List (Step n)}

/-! ### What a derivation says -/

/-- The name of the alias that spells the value, if the sentence chosen is nothing but it. -/
def Derivation.synonym? : Derivation net v → Option String
  | .choose i _ => net.synonym? (net.get v) ((net.get v).choices.get i)

mutual

/-- The tokens of a derivation. -/
def Derivation.tokens {v : Fin n} : Derivation net v → List Token
  | .choose _ ds => ds.tokens

/-- The tokens of decisions, in order. -/
def Decisions.tokens : {steps : List (Step n)} → Decisions net steps → List Token
  | _, .nil => []
  | _, .cons d ds => d.tokens ++ ds.tokens

/-- The tokens of a decision. -/
def Decision.tokens : {s : Step n} → Decision net s → List Token
  | .words words _, .keepWords => words.map .word
  | _, .dropWords => []
  | .reference target _, .keep d =>
    match (net.get target).key.kind, d.tokens with
    | .slot, [] => []
    | .slot, tokens => [.entity (net.get target).key.name (Utterance.text tokens) d.synonym?]
    | _, tokens => tokens
  | _, .drop => []

end

/-- The tokens of a derivation with the wording of its sentence. -/
def Derivation.expansion (d : Derivation net v) : Expansion := ⟨d.tokens, d.synonym?⟩

/-- A reference that is kept says what the expansion of its target contributes. -/
theorem Decision.tokens_keep {optional : Bool} (d : Derivation net w) :
    (.keep d : Decision net (.reference w optional)).tokens
      = d.expansion.place (net.get w).key := by
  rw [Decision.tokens, Expansion.place, Derivation.expansion]
  rcases hk : (net.get w).key.kind with _ | _ | _
  · simp
  · rcases ht : d.tokens with _ | ⟨t, ts⟩
    · simp
    · simp
  · simp

/-! ### The order of the grammar -/

mutual

/-- Earlier in the grammar: by an earlier sentence, or by the decisions for the same one. -/
inductive Derivation.Before : {v : Fin n} → Derivation net v → Derivation net v → Prop
  | sentence {v : Fin n} {i j : Fin (net.get v).choices.length} (h : i < j)
      (ds : Decisions net ((net.get v).choices.get i).steps)
      (es : Decisions net ((net.get v).choices.get j).steps) :
      Derivation.Before (.choose i ds) (.choose j es)
  | decisions {v : Fin n} {i : Fin (net.get v).choices.length}
      {ds es : Decisions net ((net.get v).choices.get i).steps} (h : Decisions.Before ds es) :
      Derivation.Before (.choose i ds) (.choose i es)

/-- The first step at which decisions differ tells which come first. -/
inductive Decisions.Before :
    {steps : List (Step n)} → Decisions net steps → Decisions net steps → Prop
  | first {s : Step n} {steps : List (Step n)} {d e : Decision net s} (h : Decision.Before d e)
      (ds es : Decisions net steps) : Decisions.Before (.cons d ds) (.cons e es)
  | rest {s : Step n} {steps : List (Step n)} (d : Decision net s) {ds es : Decisions net steps}
      (h : Decisions.Before ds es) : Decisions.Before (.cons d ds) (.cons d es)

/-- To keep a step comes before dropping it. -/
inductive Decision.Before : {s : Step n} → Decision net s → Decision net s → Prop
  | words {words : List String} :
      Decision.Before (.keepWords : Decision net (.words words true)) .dropWords
  | expansions {target : Fin n} {optional : Bool} {d e : Derivation net target}
      (h : Derivation.Before d e) :
      Decision.Before (.keep d : Decision net (.reference target optional)) (.keep e)
  | reference {target : Fin n} (d : Derivation net target) : Decision.Before (.keep d) .drop

end

mutual

/-- Of two different derivations one is earlier. -/
theorem Derivation.before_trichotomy {v : Fin n} :
    ∀ d e : Derivation net v, d.Before e ∨ d = e ∨ e.Before d
  | .choose i ds, .choose j es => by
    rcases lt_trichotomy i j with h | rfl | h
    · exact .inl (.sentence h ds es)
    · rcases ds.before_trichotomy es with h | rfl | h
      · exact .inl (.decisions h)
      · exact .inr (.inl rfl)
      · exact .inr (.inr (.decisions h))
    · exact .inr (.inr (.sentence h es ds))

theorem Decisions.before_trichotomy :
    {steps : List (Step n)} → ∀ ds es : Decisions net steps, ds.Before es ∨ ds = es ∨ es.Before ds
  | _, .nil, .nil => .inr (.inl rfl)
  | _, .cons d ds, .cons e es => by
    rcases d.before_trichotomy e with h | rfl | h
    · exact .inl (.first h ds es)
    · rcases ds.before_trichotomy es with h | rfl | h
      · exact .inl (.rest d h)
      · exact .inr (.inl rfl)
      · exact .inr (.inr (.rest d h))
    · exact .inr (.inr (.first h es ds))

theorem Decision.before_trichotomy :
    {s : Step n} → ∀ d e : Decision net s, d.Before e ∨ d = e ∨ e.Before d
  | _, .keepWords, .keepWords => .inr (.inl rfl)
  | _, .keepWords, .dropWords => .inl .words
  | _, .dropWords, .keepWords => .inr (.inr .words)
  | _, .dropWords, .dropWords => .inr (.inl rfl)
  | _, .keep d, .keep e => by
    rcases d.before_trichotomy e with h | rfl | h
    · exact .inl (.expansions h)
    · exact .inr (.inl rfl)
    · exact .inr (.inr (.expansions h))
  | _, .keep d, .drop => .inl (.reference d)
  | _, .drop, .keep d => .inr (.inr (.reference d))
  | _, .drop, .drop => .inr (.inl rfl)

end

/-! ### Properties of the sentences chosen -/

mutual

/-- Every sentence chosen in a derivation has the property `P`. -/
def Derivation.All (P : (v : Fin n) → Fin (net.get v).choices.length → Prop) {v : Fin n} :
    Derivation net v → Prop
  | .choose i ds => P v i ∧ ds.All P

/-- Every sentence chosen below decisions has the property `P`. -/
def Decisions.All (P : (v : Fin n) → Fin (net.get v).choices.length → Prop) :
    {steps : List (Step n)} → Decisions net steps → Prop
  | _, .nil => True
  | _, .cons d ds => d.All P ∧ ds.All P

/-- Every sentence chosen below a decision has the property `P`. -/
def Decision.All (P : (v : Fin n) → Fin (net.get v).choices.length → Prop) :
    {s : Step n} → Decision net s → Prop
  | _, .keepWords => True
  | _, .dropWords => True
  | _, .keep d => d.All P
  | _, .drop => True

end

/-! ### Derivations by their parts -/

/-- A derivation is a sentence with decisions for its steps. -/
def Derivation.equivSigma (net : Network n) (v : Fin n) :
    Derivation net v ≃
      (i : Fin (net.get v).choices.length) × Decisions net ((net.get v).choices.get i).steps where
  toFun | .choose i ds => ⟨i, ds⟩
  invFun p := .choose p.1 p.2
  left_inv d := by cases d; rfl
  right_inv p := rfl

/-- For no steps there is nothing to decide. -/
def Decisions.equivUnit (net : Network n) : Decisions net [] ≃ Unit where
  toFun _ := ()
  invFun _ := .nil
  left_inv ds := by cases ds; rfl
  right_inv _ := rfl

/-- Decisions are one for the first step and those for the others. -/
def Decisions.equivProd (net : Network n) (s : Step n) (steps : List (Step n)) :
    Decisions net (s :: steps) ≃ Decision net s × Decisions net steps where
  toFun | .cons d ds => (d, ds)
  invFun p := .cons p.1 p.2
  left_inv ds := by cases ds; rfl
  right_inv p := rfl

/-- Required words are said in one way. -/
def Decision.equivUnit (net : Network n) (words : List String) :
    Decision net (.words words false) ≃ Unit where
  toFun _ := ()
  invFun _ := .keepWords
  left_inv d := by cases d; rfl
  right_inv _ := rfl

/-- Optional words are said or not. -/
def Decision.equivBool (net : Network n) (words : List String) :
    Decision net (.words words true) ≃ Bool where
  toFun
    | .keepWords => true
    | .dropWords => false
  invFun
    | true => .keepWords
    | false => .dropWords
  left_inv d := by cases d <;> rfl
  right_inv b := by cases b <;> rfl

/-- A required reference is expanded. -/
def Decision.equivDerivation (net : Network n) (target : Fin n) :
    Decision net (.reference target false) ≃ Derivation net target where
  toFun | .keep d => d
  invFun d := .keep d
  left_inv d := by cases d; rfl
  right_inv _ := rfl

/-- An optional reference is expanded or not. -/
def Decision.equivOption (net : Network n) (target : Fin n) :
    Decision net (.reference target true) ≃ Option (Derivation net target) where
  toFun
    | .keep d => some d
    | .drop => none
  invFun
    | some d => .keep d
    | none => .drop
  left_inv d := by cases d <;> rfl
  right_inv d := by cases d <;> rfl

end IntentGrammar
