import IntentGrammar.Graph.Link
import IntentGrammar.Proofs.Labels
import IntentGrammar.Utterance

/-!
# Words and the spaces between them

To put words together with single spaces and to cut the result into words are inverse to each other
(`wordsOf_intercalate`), since a word has no white space and is not empty.  In a text that is put
together so, no white space stands at either end, and never does a space follow a space
(`singlySpaced_intercalate`).

The text of an utterance whose tokens are all *spaced* is put together from the words of its tokens
(`text_eq_intercalate_words`).  So it tells these words, but not how they are grouped into tokens.
-/

namespace IntentGrammar

open Text

/-! ### Words -/

/-- The text is one word: it is not empty, and there is no white space in it. -/
def IsWord (text : String) : Prop := text ≠ "" ∧ ∀ c ∈ text.toList, isBlank c = false

/-- The text is one or more words with single spaces between them. -/
def Spaced (text : String) : Prop :=
  ∃ ws, ws ≠ [] ∧ (∀ w ∈ ws, IsWord w) ∧ text = " ".intercalate ws

theorem IsWord.spaced {text : String} (h : IsWord text) : Spaced text :=
  ⟨[text], List.cons_ne_nil _ _, List.forall_mem_singleton.mpr h, String.intercalate_singleton.symm⟩

section Cutting

variable {c d : Char} {cs w rest : List Char} {ws : List (List Char)}

theorem words_cons_of_isBlank (hc : isBlank c = true) : words (c :: cs) = words cs := by
  rw [words.eq_def]
  exact if_pos hc

/-- Any other character begins the first word, alone or with what follows it. -/
theorem words_cons_eq_or (cs : List Char) (hc : isBlank c = false) :
    words (c :: cs) = [c] :: words cs ∨
      ∃ w ws, words cs = w :: ws ∧ words (c :: cs) = (c :: w) :: ws := by
  have hcons := (words.eq_def (c :: cs)).trans (if_neg (Bool.eq_false_iff.mp hc))
  rw [hcons]
  split
  · next w ws heq =>
    split
    · exact .inl (congrArg _ heq.symm)
    · exact .inr ⟨w, ws, heq, rfl⟩
  · exact .inl rfl

/-- A character that white space follows, or nothing, is a word, or the end of one. -/
theorem words_cons_of_head? (hc : isBlank c = false) (h : ∀ d ∈ cs.head?, isBlank d = true) :
    words (c :: cs) = [c] :: words cs := by
  rw [words.eq_def]
  refine (if_neg (Bool.eq_false_iff.mp hc)).trans ?_
  split
  · next d _ _ _ heq =>
    rw [if_pos (h d rfl), heq]
  · rfl

/-- A character that none of white space follows belongs to the first word behind it. -/
theorem words_cons_cons (hc : isBlank c = false) (hd : isBlank d = false)
    (h : words (d :: cs) = w :: ws) : words (c :: d :: cs) = (c :: w) :: ws := by
  rw [words.eq_def]
  refine (if_neg (Bool.eq_false_iff.mp hc)).trans ?_
  rw [h]
  exact if_neg (Bool.eq_false_iff.mp hd)

/-- A run without white space that ends with the text, or at white space, is a word of it. -/
theorem words_append (hne : w ≠ []) (hw : ∀ c ∈ w, isBlank c = false)
    (hrest : ∀ c ∈ rest.head?, isBlank c = true) : words (w ++ rest) = w :: words rest := by
  induction w with
  | nil => exact absurd rfl hne
  | cons c w ih =>
    obtain ⟨hc, hw⟩ := List.forall_mem_cons.mp hw
    rcases w with _ | ⟨d, w⟩
    · exact words_cons_of_head? hc hrest
    · exact words_cons_cons hc (hw d List.mem_cons_self) (ih (List.cons_ne_nil d w) hw)

/-- What a text is cut into are words. -/
theorem of_mem_words (h : w ∈ words cs) : w ≠ [] ∧ ∀ c ∈ w, isBlank c = false := by
  induction cs generalizing w with
  | nil => exact absurd h List.not_mem_nil
  | cons c cs ih =>
    by_cases hc : isBlank c = true
    · rw [words_cons_of_isBlank hc] at h
      exact ih h
    · rw [Bool.not_eq_true] at hc
      have hone : [c] ≠ [] ∧ ∀ c' ∈ [c], isBlank c' = false :=
        ⟨List.cons_ne_nil c [], List.forall_mem_singleton.mpr hc⟩
      -- the character is a word by itself or the first of the first word behind it
      rcases words_cons_eq_or cs hc with heq | ⟨first, others, hcs, heq⟩
      · rw [heq] at h
        rcases List.mem_cons.mp h with rfl | h
        · exact hone
        · exact ih h
      · rw [heq] at h
        rw [hcs] at ih
        rcases List.mem_cons.mp h with rfl | h
        · obtain ⟨-, hfirst⟩ := ih List.mem_cons_self
          exact ⟨List.cons_ne_nil c first, List.forall_mem_cons.mpr ⟨hc, hfirst⟩⟩
        · exact ih (List.mem_cons_of_mem first h)

end Cutting

theorem isWord_of_mem_wordsOf {text w : String} (h : w ∈ wordsOf text) : IsWord w := by
  obtain ⟨cs, hcs, rfl⟩ := List.mem_map.mp h
  obtain ⟨hne, hblank⟩ := of_mem_words hcs
  constructor
  · intro hempty
    rw [← String.toList_eq_nil_iff, String.toList_ofList] at hempty
    exact hne hempty
  · rwa [String.toList_ofList]

/-! ### Single spaces -/

section Spaces

variable {ws : List String}

/-- The first of several words, then a space, then the others. -/
theorem toList_intercalate_cons_cons (w w' : String) (ws : List String) :
    (" ".intercalate (w :: w' :: ws)).toList
      = w.toList ++ ' ' :: (" ".intercalate (w' :: ws)).toList := by
  rw [String.intercalate_cons_cons, String.toList_append, String.toList_append, List.append_assoc]
  rfl

/-- **Words that are put together** are cut apart again. -/
theorem wordsOf_intercalate (h : ∀ w ∈ ws, IsWord w) : wordsOf (" ".intercalate ws) = ws := by
  rw [wordsOf]
  induction ws with
  | nil => rfl
  | cons w ws ih =>
    obtain ⟨⟨hne, hblank⟩, hws⟩ := List.forall_mem_cons.mp h
    rw [← String.toList_eq_nil_iff.ne] at hne
    rcases ws with _ | ⟨w', ws⟩
    · rw [String.intercalate_singleton, ← List.append_nil w.toList,
        words_append hne hblank (fun _ h => absurd h (Option.not_mem_none _)), List.map_cons, String.ofList_toList]
      rfl
    · -- the first word ends at a space, with which the others do not begin
      have hrest : ∀ c ∈ (' ' :: (" ".intercalate (w' :: ws)).toList).head?, isBlank c = true := by
        rintro c ⟨⟩
        rfl
      rw [toList_intercalate_cons_cons, words_append hne hblank hrest, words_cons_of_isBlank rfl,
        List.map_cons, String.ofList_toList, ih hws]

theorem Spaced.eq_intercalate_wordsOf {text : String} (h : Spaced text) :
    text = " ".intercalate (wordsOf text) := by
  obtain ⟨ws, -, hws, rfl⟩ := h
  rw [wordsOf_intercalate hws]

theorem Spaced.wordsOf_ne_nil {text : String} (h : Spaced text) : wordsOf text ≠ [] := by
  obtain ⟨ws, hne, hws, rfl⟩ := h
  rwa [wordsOf_intercalate hws]

theorem Spaced.ne_empty {text : String} (h : Spaced text) : text ≠ "" := by
  rintro rfl
  exact h.wordsOf_ne_nil rfl

/-- White space stands neither at an end of the text nor next to white space. -/
structure SinglySpaced (cs : List Char) : Prop where
  trimmed : Trimmed cs
  chain : cs.IsChain fun c d => isBlank c = false ∨ isBlank d = false

theorem singlySpaced_of_forall {cs : List Char} (h : ∀ c ∈ cs, isBlank c = false) :
    SinglySpaced cs where
  trimmed := ⟨fun c hc => h c (List.mem_of_mem_head? hc),
    fun c hc => h c (List.mem_of_mem_getLast? hc)⟩
  chain := (List.pairwise_of_forall_mem_list fun c hc _ _ => .inl (h c hc)).isChain

/-- A space between two texts stands alone. -/
theorem SinglySpaced.append_space {xs ys : List Char} (hxs : SinglySpaced xs)
    (hys : SinglySpaced ys) (hxne : xs ≠ []) (hyne : ys ≠ []) : SinglySpaced (xs ++ ' ' :: ys) where
  trimmed := by
    constructor
    · rw [List.head?_append_of_ne_nil xs hxne]
      exact hxs.trimmed.1
    · rw [List.append_cons, List.getLast?_append_of_ne_nil _ hyne]
      exact hys.trimmed.2
  chain := by
    refine List.isChain_append.mpr ⟨hxs.chain, List.isChain_cons.mpr ⟨?_, hys.chain⟩, ?_⟩
    · exact fun c hc => .inr (hys.trimmed.1 c hc)
    · exact fun c hc _ _ => .inl (hxs.trimmed.2 c hc)

/-- **Between words that are put together** stand single spaces, and none around them. -/
theorem singlySpaced_intercalate (h : ∀ w ∈ ws, IsWord w) :
    SinglySpaced (" ".intercalate ws).toList := by
  induction ws with
  | nil => exact singlySpaced_of_forall (List.forall_mem_nil _)
  | cons w ws ih =>
    obtain ⟨hw, hws⟩ := List.forall_mem_cons.mp h
    rcases ws with _ | ⟨w', ws⟩
    · rw [String.intercalate_singleton]
      exact singlySpaced_of_forall hw.2
    · have hne : " ".intercalate (w' :: ws) ≠ "" :=
        Spaced.ne_empty ⟨_, List.cons_ne_nil w' ws, hws, rfl⟩
      rw [toList_intercalate_cons_cons]
      exact (singlySpaced_of_forall hw.2).append_space (ih hws)
        (String.toList_eq_nil_iff.ne.mpr hw.1) (String.toList_eq_nil_iff.ne.mpr hne)

end Spaces

/-! ### Utterances -/

namespace Utterance

variable {u u' : Utterance}

/-- The words of all tokens, in order. -/
def words (u : Utterance) : List String := u.flatMap fun t => wordsOf t.text

/-- What comes behind a text is put behind a space each time. -/
theorem foldl_joinWords {front : String} (hne : front ≠ "") (u : Utterance) :
    u.foldl (fun text token => joinWords text token.text) front
      = " ".intercalate (front :: u.map Token.text) := by
  induction u generalizing front with
  | nil => exact String.intercalate_singleton.symm
  | cons t u ih =>
    have hjoin : joinWords front t.text = front ++ " " ++ t.text :=
      if_neg (String.isEmpty_iff.not.mpr hne)
    have hne' : front ++ " " ++ t.text ≠ "" := by
      rw [String.append_assoc, Ne, String.append_eq_empty_iff]
      exact fun h => hne h.1
    rw [List.foldl_cons, hjoin, ih hne', List.map_cons]
    rfl

/-- The texts of the tokens are joined by single spaces, if none of them is empty. -/
theorem text_eq_intercalate (h : ∀ t ∈ u, t.text ≠ "") :
    text u = " ".intercalate (u.map Token.text) := by
  rcases u with _ | ⟨t, u⟩
  · rfl
  · exact foldl_joinWords (h t List.mem_cons_self) u

theorem words_ne_nil (hne : u ≠ []) (h : ∀ t ∈ u, Spaced t.text) : u.words ≠ [] := by
  obtain ⟨t, u, rfl⟩ := List.exists_cons_of_ne_nil hne
  rw [words, List.flatMap_cons]
  exact List.append_ne_nil_of_left_ne_nil (h t List.mem_cons_self).wordsOf_ne_nil _

/-- **The text of an utterance** is put together from the words of its tokens. -/
theorem text_eq_intercalate_words (h : ∀ t ∈ u, Spaced t.text) :
    text u = " ".intercalate u.words := by
  rw [text_eq_intercalate fun t ht => (h t ht).ne_empty]
  induction u with
  | nil => rfl
  | cons t u ih =>
    obtain ⟨ht, hu⟩ := List.forall_mem_cons.mp h
    rw [words, List.flatMap_cons, ← words, List.map_cons]
    rcases u with _ | ⟨t', u⟩
    · rw [words, List.flatMap_nil, List.append_nil, List.map_nil, String.intercalate_singleton]
      exact ht.eq_intercalate_wordsOf
    · -- neither the first token nor the others are without words, so a space stands between them
      have hwords := words_ne_nil (List.cons_ne_nil t' u) hu
      rw [String.intercalate_append_of_ne_nil ht.wordsOf_ne_nil hwords, ← ih hu,
        ← ht.eq_intercalate_wordsOf]
      exact String.intercalate_cons_of_ne_nil (List.cons_ne_nil _ _)

theorem isWord_of_mem_words {w : String} (h : w ∈ u.words) : IsWord w := by
  obtain ⟨t, -, hw⟩ := List.mem_flatMap.mp h
  exact isWord_of_mem_wordsOf hw

theorem spaced_text (hne : u ≠ []) (h : ∀ t ∈ u, Spaced t.text) : Spaced (text u) :=
  ⟨u.words, words_ne_nil hne h, fun _ => isWord_of_mem_words, text_eq_intercalate_words h⟩

theorem singlySpaced_text (h : ∀ t ∈ u, Spaced t.text) : SinglySpaced (text u).toList := by
  rw [text_eq_intercalate_words h]
  exact singlySpaced_intercalate fun _ => isWord_of_mem_words

/-- **Two utterances have the same text** exactly if their tokens have the same words. -/
theorem text_eq_text_iff (h : ∀ t ∈ u, Spaced t.text) (h' : ∀ t ∈ u', Spaced t.text) :
    text u = text u' ↔ u.words = u'.words := by
  rw [text_eq_intercalate_words h, text_eq_intercalate_words h']
  constructor
  · intro heq
    rw [← wordsOf_intercalate fun w => isWord_of_mem_words (u := u) (w := w), heq,
      wordsOf_intercalate fun w => isWord_of_mem_words]
  · intro heq
    rw [heq]

end Utterance

end IntentGrammar
