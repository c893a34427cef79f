import IntentGrammar.Proofs.JsonReading
import IntentGrammar.Proofs.OpenFiles
import IntentGrammar.Text.Cut

/-!
# One JSON text a line

The compact text of a JSON value has no control characters below U+0020: strings escape them, and
nothing else that is written has one (**`Json.le_toNat_compact`**).  So it has no line break, a file
of utterances has as many lines as utterances, and each line is the text of one
(`textLines_linesText`).
-/

namespace IntentGrammar

open Text

namespace Json

/-! ### No control characters -/

theorem le_toNat_digitChar {n : Nat} (h : n < 16) : 32 ≤ (Nat.digitChar n).toNat := by
  interval_cases n <;> simp [Nat.digitChar]

theorem le_toNat_escapeChar (c : Char) : ∀ d ∈ escapeChar c, 32 ≤ d.toNat := by
  unfold escapeChar
  split_ifs with _ _ _ _ _ _ _ hlow
  any_goals simp
  · -- a control character is written with four digits
    have hhigh := le_toNat_digitChar (n := c.toNat / 16) (by omega)
    have hrest := le_toNat_digitChar (n := c.toNat % 16) (by omega)
    simp [hhigh, hrest]
  · simpa using hlow

theorem le_toNat_quote (s : String) : ∀ c ∈ quote s, 32 ≤ c.toNat := by
  have hescaped : ∀ c ∈ s.toList.flatMap escapeChar, 32 ≤ c.toNat := by
    intro c h
    obtain ⟨d, -, hd⟩ := List.mem_flatMap.mp h
    exact le_toNat_escapeChar d c hd
  rw [quote, List.forall_mem_append, List.forall_mem_cons]
  exact ⟨⟨by simp, hescaped⟩, by simp⟩

theorem le_toNat_of_isNumeric {c : Char} (h : isNumeric c = true) : 32 ≤ c.toNat := by
  simp only [isNumeric, Bool.or_eq_true, decide_eq_true_eq] at h
  rcases h with ((((hdigit | rfl) | rfl) | rfl) | rfl) | rfl
  · exact Nat.le_trans (by decide) (Char.isDigit_iff_toNat.mp hdigit).1
  all_goals simp

mutual

/-- **The compact text of a value** has no character below U+0020. -/
theorem le_toNat_compact : (j : Json) → ∀ c ∈ j.compact, 32 ≤ c.toNat
  | null => by simp [compact]
  | bool true => by simp [compact]
  | bool false => by simp [compact]
  | integer _ => fun _ h => le_toNat_of_isNumeric (isNumeric_of_mem_integerText h)
  | decimal _ _ _ => fun _ h => le_toNat_of_isNumeric (isNumeric_of_mem_decimalText h)
  | string s => le_toNat_quote s
  | array items => by
    rw [compact, List.forall_mem_append, List.forall_mem_cons]
    exact ⟨⟨by simp, le_toNat_compactItems items⟩, by simp⟩
  | object members => by
    rw [compact, List.forall_mem_append, List.forall_mem_cons]
    exact ⟨⟨by simp, le_toNat_compactMembers members⟩, by simp⟩

theorem le_toNat_compactItems : (items : List Json) → ∀ c ∈ compactItems items, 32 ≤ c.toNat
  | [] => List.forall_mem_nil _
  | [item] => by
    rw [compactItems]
    exact le_toNat_compact item
  | item :: other :: items => by
    simp only [compactItems, List.forall_mem_append, List.forall_mem_cons]
    exact ⟨le_toNat_compact item, by simp, le_toNat_compactItems (other :: items)⟩

theorem le_toNat_compactMembers :
    (members : List (String × Json)) → ∀ c ∈ compactMembers members, 32 ≤ c.toNat
  | [] => List.forall_mem_nil _
  | [(name, value)] => by
    rw [compactMembers, List.forall_mem_append, List.forall_mem_cons]
    exact ⟨le_toNat_quote name, by simp, le_toNat_compact value⟩
  | (name, value) :: other :: members => by
    simp only [compactMembers, List.forall_mem_append, List.forall_mem_cons]
    exact ⟨⟨le_toNat_quote name, by simp, le_toNat_compact value⟩, by simp,
      le_toNat_compactMembers (other :: members)⟩

end

theorem newline_notMem_compact (j : Json) : '\n' ∉ j.compact :=
  fun h => absurd (j.le_toNat_compact _ h) (by decide)

end Json

/-! ### The lines of a text -/

/-- The lines of a text, each ended by a line break. -/
def textLines (text : String) : List (List Char) := (cut '\n' text.toList).dropLast

theorem toList_linesText_cons (u : Utterance) (us : List Utterance) :
    (linesText (u :: us)).toList
      = (Utterance.toJson u).compact ++ '\n' :: (linesText us).toList := by
  rw [linesText, List.map_cons, String.join_cons, String.toList_append, String.toList_append,
    ← linesText]
  simp [Json.text]

/-- **Each line** is the text of an utterance. -/
theorem textLines_linesText (us : List Utterance) :
    textLines (linesText us) = us.map fun u => (Utterance.toJson u).compact := by
  have hcut (us : List Utterance) : cut '\n' (linesText us).toList
      = (us.map fun u => (Utterance.toJson u).compact) ++ [[]] := by
    induction us with
    | nil => rfl
    | cons u us ih =>
      rw [toList_linesText_cons, cut_append_cons, ih, cut_of_notMem (Json.newline_notMem_compact _)]
      rfl
  rw [textLines, hcut, List.dropLast_concat]

/-- There is a line break for each utterance, and there are no others. -/
theorem count_newline_linesText (us : List Utterance) :
    (linesText us).toList.count '\n' = us.length := by
  induction us with
  | nil => rfl
  | cons u us ih =>
    have hnone := List.count_eq_zero_of_not_mem (Json.newline_notMem_compact (Utterance.toJson u))
    rw [toList_linesText_cons, List.count_append, hnone, List.count_cons_self, ih, List.length_cons,
      Nat.zero_add]

end IntentGrammar
