import IntentGrammar.Dataset
import IntentGrammar.Proofs.Sinks
import Mathlib.Data.String.Basic

/-!
# What data sets make of batches

A data set is changed intent by intent.  Two changes to one intent are one
(`Dataset.update_update`), and changes to different intents can be exchanged
(`Dataset.update_comm`).  So batches of different intents can come in either order
(`Dataset.accept_comm`), and of the batches of one intent it only matters what they hold for each
part (**`Dataset.after_sink`**).
-/

namespace IntentGrammar

namespace Dataset

variable {name other : String} {f g : IntentData → IntentData} {d : IntentData}
  {rest : List (String × IntentData)}

theorem update_self : update name f ((name, d) :: rest) = (name, f d) :: rest := if_pos rfl

theorem update_of_lt (h : name < other) :
    update name f ((other, d) :: rest) = (name, f {}) :: (other, d) :: rest := by
  rw [update, if_neg h.ne, if_pos h]

theorem update_of_gt (h : other < name) :
    update name f ((other, d) :: rest) = (other, d) :: update name f rest := by
  rw [update, if_neg h.ne', if_neg h.asymm]

/-- Changes to the data of different intents can be exchanged. -/
theorem update_comm {m n : String} (hne : m ≠ n) (f g : IntentData → IntentData)
    (ds : List (String × IntentData)) :
    update n g (update m f ds) = update m f (update n g ds) := by
  -- two intents that are new to what follows are put in by their order
  have hnew : ∀ {m n : String} (f g : IntentData → IntentData) (rest : List (String × IntentData)),
      m < n → update n g rest = (n, g {}) :: rest →
        update n g ((m, f {}) :: rest) = update m f ((n, g {}) :: rest) := by
    intro m n f g rest hlt hrest
    rw [update_of_gt hlt, hrest, update_of_lt hlt]
  induction ds with
  | nil =>
    show update n g [(m, f {})] = update m f [(n, g {})]
    rcases lt_or_gt_of_ne hne with hlt | hlt
    · exact hnew f g [] hlt rfl
    · exact (hnew g f [] hlt rfl).symm
  | cons d ds ih =>
    obtain ⟨o, d⟩ := d
    rcases lt_trichotomy m o with hm | rfl | hm
    · rcases lt_trichotomy n o with hn | rfl | hn
      · rw [update_of_lt hm, update_of_lt hn]
        rcases lt_or_gt_of_ne hne with hlt | hlt
        · exact hnew f g _ hlt (update_of_lt hn)
        · exact (hnew g f _ hlt (update_of_lt hm)).symm
      · rw [update_of_lt hm, update_of_gt hm, update_self, update_of_lt hm]
      · rw [update_of_lt hm, update_of_gt (hm.trans hn), update_of_gt hn, update_of_lt hm]
    · rcases lt_or_gt_of_ne hne with hn | hn
      · rw [update_self, update_of_gt hn, update_of_gt hn, update_self]
      · rw [update_self, update_of_lt hn, update_of_lt hn, update_of_gt hn, update_self]
    · rcases lt_trichotomy n o with hn | rfl | hn
      · rw [update_of_gt hm, update_of_lt hn, update_of_lt hn, update_of_gt (hn.trans hm),
          update_of_gt hm]
      · rw [update_of_gt hm, update_self, update_self, update_of_gt hm]
      · rw [update_of_gt hm, update_of_gt hn, update_of_gt hn, update_of_gt hm, ih]

/-- Two changes to the data of an intent are one. -/
theorem update_update (name : String) (f g : IntentData → IntentData)
    (ds : List (String × IntentData)) :
    update name g (update name f ds) = update name (fun d => g (f d)) ds := by
  induction ds with
  | nil => exact update_self
  | cons d ds ih =>
    obtain ⟨other, d⟩ := d
    rcases lt_trichotomy name other with h | rfl | h
    · rw [update_of_lt h, update_of_lt h, update_self]
    · rw [update_self, update_self, update_self]
    · rw [update_of_gt h, update_of_gt h, update_of_gt h, ih]

/-- Batches of different intents can be taken in in either order. -/
theorem accept_comm (d : Dataset) {a b : Batch} (hne : a.intent ≠ b.intent) :
    (d.accept a).accept b = (d.accept b).accept a :=
  congrArg Dataset.mk (update_comm hne _ _ d.intents)

/-- Take in utterances for both parts of an intent, if there are any. -/
def add (d : Dataset) (intent : String) (training testing : List Utterance) : Dataset :=
  if training = [] ∧ testing = [] then d
  else
    ⟨update intent (fun data => ⟨data.training ++ training, data.testing ++ testing⟩) d.intents⟩

/-- To take in a batch is to take in its utterances. -/
theorem accept_eq_add (d : Dataset) {b : Batch} (h : b.utterances ≠ []) :
    d.accept b = d.add b.intent (ofPart .training [b]) (ofPart .testing [b]) := by
  obtain ⟨intent, index, part, us⟩ := b
  cases part <;> simp_all [add, accept, ofPart, IntentData.append]

theorem add_add (d : Dataset) (intent : String) (us vs us' vs' : List Utterance) :
    (d.add intent us vs).add intent us' vs' = d.add intent (us ++ us') (vs ++ vs') := by
  by_cases h : us = [] ∧ vs = []
  · obtain ⟨rfl, rfl⟩ := h
    rfl
  by_cases h' : us' = [] ∧ vs' = []
  · obtain ⟨rfl, rfl⟩ := h'
    rw [List.append_nil, List.append_nil, add, if_pos ⟨rfl, rfl⟩]
  · have hboth : ¬(us ++ us' = [] ∧ vs ++ vs' = []) := by
      simp only [List.append_eq_nil_iff]
      tauto
    rw [add, add, add, if_neg h, if_neg h', if_neg hboth, update_update]
    simp only [List.append_assoc]

/-- **Of the batches of an intent** a data set takes in what they hold for each part. -/
theorem after_sink (d : Dataset) {intent : String} {bs : List Batch}
    (hintent : ∀ b ∈ bs, b.intent = intent) (hnonempty : ∀ b ∈ bs, b.utterances ≠ []) :
    sink.after d bs = d.add intent (ofPart .training bs) (ofPart .testing bs) := by
  induction bs generalizing d with
  | nil => exact (if_pos ⟨rfl, rfl⟩).symm
  | cons b bs ih =>
    rw [List.forall_mem_cons] at hintent hnonempty
    show sink.after (d.accept b) bs = _
    rw [ih _ hintent.2 hnonempty.2, accept_eq_add d hnonempty.1, hintent.1, add_add,
      ← ofPart_append, ← ofPart_append]
    rfl

end Dataset

end IntentGrammar
