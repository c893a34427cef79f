import IntentGrammar.Delivery
import IntentGrammar.Stream
import Mathlib.Data.List.Basic

/-!
# What an emitter hands over

Whatever batches an emitter makes of the utterances it takes up, and whenever, nothing is lost and
nothing is changed: what it has handed over of a part and what is waiting for it are together the
utterances of that part, in their order.  `Emitter.Hands` says this of any stretch of the work of
an emitter, with what else is kept: the batches are for its intent, are numbered on, and are never
empty.  A stretch is put together from smaller ones (`Emitter.Hands.trans`), so the two steps that
there are, to take up an utterance and to hand over what is waiting, decide about all of them.

At the end nothing is waiting, and the batches hold just the utterances
(`Emitter.exists_hands_handed`).
-/

namespace IntentGrammar

/-- The utterances that are for a part. -/
def utterancesOf (part : Part) (xs : List Labelled) : List Utterance :=
  (xs.filter (·.1 = part)).map (·.2)

/-- The utterances in batches for a part. -/
def ofPart (part : Part) (bs : List Batch) : List Utterance :=
  (bs.filter (·.part = part)).flatMap (·.utterances)

theorem utterancesOf_cons (part : Part) (x : Labelled) (xs : List Labelled) :
    utterancesOf part (x :: xs)
      = if x.1 = part then x.2 :: utterancesOf part xs else utterancesOf part xs := by
  by_cases h : x.1 = part <;> simp [utterancesOf, h]

theorem utterancesOf_append (part : Part) (xs ys : List Labelled) :
    utterancesOf part (xs ++ ys) = utterancesOf part xs ++ utterancesOf part ys := by
  rw [utterancesOf, List.filter_append, List.map_append]
  rfl

theorem ofPart_append (part : Part) (bs cs : List Batch) :
    ofPart part (bs ++ cs) = ofPart part bs ++ ofPart part cs := by
  rw [ofPart, List.filter_append, List.flatMap_append]
  rfl

/-- The parts together are all. -/
theorem length_utterancesOf (xs : List Labelled) :
    (utterancesOf .training xs).length + (utterancesOf .testing xs).length = xs.length := by
  induction xs with
  | nil => rfl
  | cons x xs ih =>
    rw [utterancesOf_cons, utterancesOf_cons, List.length_cons, ← ih]
    obtain ⟨_ | _, u⟩ := x
    · rw [if_pos rfl, if_neg nofun, List.length_cons, Nat.add_right_comm]
    · rw [if_neg nofun, if_pos rfl, List.length_cons, Nat.add_assoc]

namespace Emitter

theorem waiting_setWaiting (e : Emitter) (part other : Part) (us : Array Utterance) :
    (e.setWaiting part us).waiting other = if part = other then us else e.waiting other := by
  cases part <;> cases other <;> rfl

/-- An emitter that takes up `xs` hands over `bs` and becomes `e'`. -/
structure Hands (e : Emitter) (xs : List Labelled) (bs : List Batch) (e' : Emitter) : Prop where
  intent : e'.intent = e.intent
  intents : ∀ b ∈ bs, b.intent = e.intent
  indices : bs.map (·.index) = List.range' e.nextIndex bs.length
  nextIndex : e'.nextIndex = e.nextIndex + bs.length
  nonempty : ∀ b ∈ bs, b.utterances ≠ []
  balance (part : Part) : ofPart part bs ++ (e'.waiting part).toList
    = (e.waiting part).toList ++ utterancesOf part xs

variable {e e' e'' : Emitter} {xs ys : List Labelled} {bs cs : List Batch}

theorem Hands.refl (e : Emitter) : e.Hands [] [] e where
  intent := rfl
  intents := by simp
  indices := rfl
  nextIndex := rfl
  nonempty := by simp
  balance part := by simp [ofPart, utterancesOf]

theorem Hands.trans (h : e.Hands xs bs e') (h' : e'.Hands ys cs e'') :
    e.Hands (xs ++ ys) (bs ++ cs) e'' where
  intent := h'.intent.trans h.intent
  intents b hb := by
    rcases List.mem_append.mp hb with hb | hb
    · exact h.intents b hb
    · exact (h'.intents b hb).trans h.intent
  indices := by
    rw [List.map_append, h.indices, h'.indices, h.nextIndex, List.length_append,
      List.range'_append_1]
  nextIndex := by
    rw [h'.nextIndex, h.nextIndex, List.length_append, Nat.add_assoc]
  nonempty b hb := by
    rcases List.mem_append.mp hb with hb | hb
    · exact h.nonempty b hb
    · exact h'.nonempty b hb
  balance part := by
    rw [ofPart_append, List.append_assoc, h'.balance, ← List.append_assoc, h.balance,
      List.append_assoc, utterancesOf_append]

/-- To take up an utterance without handing over anything. -/
theorem hands_setWaiting (e : Emitter) (part : Part) (u : Utterance) :
    e.Hands [(part, u)] [] (e.setWaiting part ((e.waiting part).push u)) where
  intent := by cases part <;> rfl
  intents := by simp
  indices := rfl
  nextIndex := by cases part <;> rfl
  nonempty := by simp
  balance other := by
    rw [waiting_setWaiting]
    by_cases h : part = other
    · subst h
      simp [ofPart, utterancesOf]
    · simp [ofPart, utterancesOf, h]

/-- To hand over what is waiting. -/
theorem hands_flush (e : Emitter) (part : Part) :
    e.Hands [] (e.flush part).1.toList (e.flush part).2 := by
  rw [flush]
  by_cases hempty : (e.waiting part).isEmpty
  · rw [if_pos hempty]
    exact .refl e
  · rw [if_neg hempty]
    exact {
      intent := by cases part <;> rfl
      intents := by simp
      indices := by simp
      nextIndex := rfl
      nonempty := by simpa using hempty
      balance := by
        intro other
        show _ ++ ((e.setWaiting part #[]).waiting other).toList = _
        rw [waiting_setWaiting]
        by_cases h : part = other
        · subst h
          simp [ofPart, utterancesOf]
        · simp [ofPart, utterancesOf, h] }

theorem hands_push (e : Emitter) (part : Part) (u : Utterance) :
    e.Hands [(part, u)] (e.push part u).1.toList (e.push part u).2 := by
  have htaken := e.hands_setWaiting part u
  rw [push]
  split
  · exact htaken.trans (hands_flush _ part)
  · exact htaken

/-- What an emitter hands over while it takes up utterances, and what becomes of it. -/
def pushAll (e : Emitter) : List Labelled → List Batch × Emitter
  | [] => ([], e)
  | (part, u) :: xs =>
    let (batch, e) := e.push part u
    let (bs, e) := e.pushAll xs
    (batch.toList ++ bs, e)

theorem hands_pushAll (e : Emitter) (xs : List Labelled) :
    e.Hands xs (e.pushAll xs).1 (e.pushAll xs).2 := by
  induction xs generalizing e with
  | nil => exact .refl e
  | cons x xs ih => exact (e.hands_push x.1 x.2).trans (ih _)

/-- What has been handed over of a part is not waiting any more, and the other part is as it was. -/
theorem waiting_flush (e : Emitter) (part other : Part) :
    (e.flush part).2.waiting other = if part = other then #[] else e.waiting other := by
  rw [flush]
  split
  · grind
  · exact e.waiting_setWaiting part other #[]

/-- At the end nothing is waiting. -/
theorem exists_hands_finish (e : Emitter) :
    ∃ e', e.Hands [] e.finish e' ∧ ∀ part, e'.waiting part = #[] := by
  have hfirst := e.hands_flush .training
  have hsecond := (e.flush .training).2.hands_flush .testing
  refine ⟨_, hfirst.trans hsecond, ?_⟩
  intro part
  cases part <;> simp [waiting_flush]

/-- All that an emitter hands over of utterances. -/
def handed (e : Emitter) (xs : List Labelled) : List Batch :=
  (e.pushAll xs).1 ++ (e.pushAll xs).2.finish

theorem exists_hands_handed (e : Emitter) (xs : List Labelled) :
    ∃ e', e.Hands xs (e.handed xs) e' ∧ ∀ part, e'.waiting part = #[] := by
  obtain ⟨e', hfinish, hwaiting⟩ := (e.pushAll xs).2.exists_hands_finish
  have h := (e.hands_pushAll xs).trans hfinish
  rw [List.append_nil] at h
  exact ⟨e', h, hwaiting⟩

end Emitter

end IntentGrammar
