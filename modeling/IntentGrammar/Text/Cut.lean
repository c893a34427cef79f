/-!
# Cutting a text

A text that is cut at a character falls into one piece more than the character occurs.  What stands
before and behind one of its places can be cut by itself.
-/

namespace IntentGrammar.Text

/-- The pieces of a text between the places where a character stands. -/
def cut (sep : Char) : List Char → List (List Char)
  | [] => [[]]
  | c :: cs =>
    if c = sep then [] :: cut sep cs
    else
      match cut sep cs with
      | [] => [[c]]
      | piece :: pieces => (c :: piece) :: pieces

section Cut

variable {sep : Char} {cs piece : List Char}

theorem cut_ne_nil (sep : Char) (cs : List Char) : cut sep cs ≠ [] := by
  cases cs with
  | nil => exact List.cons_ne_nil _ _
  | cons c cs =>
    rw [cut]
    split
    · exact List.cons_ne_nil _ _
    · split
      · exact List.cons_ne_nil _ _
      · exact List.cons_ne_nil _ _

theorem cut_cons_sep (sep : Char) (cs : List Char) : cut sep (sep :: cs) = [] :: cut sep cs := by
  rw [cut, if_pos rfl]

theorem cut_cons_of_ne {c : Char} (hc : c ≠ sep) {first : List Char} {pieces : List (List Char)}
    (h : cut sep cs = first :: pieces) : cut sep (c :: cs) = (c :: first) :: pieces := by
  rw [cut, if_neg hc, h]

/-- The character is in none of the pieces. -/
theorem notMem_of_mem_cut (h : piece ∈ cut sep cs) : sep ∉ piece := by
  induction cs generalizing piece with
  | nil =>
    rw [cut, List.mem_singleton] at h
    rw [h]
    exact List.not_mem_nil
  | cons c cs ih =>
    obtain ⟨first, pieces, hcut⟩ := List.exists_cons_of_ne_nil (cut_ne_nil sep cs)
    rw [hcut] at ih
    by_cases hc : c = sep
    · rw [hc, cut_cons_sep, hcut] at h
      rcases List.mem_cons.mp h with rfl | h
      · exact List.not_mem_nil
      · exact ih h
    · rw [cut_cons_of_ne hc hcut] at h
      rcases List.mem_cons.mp h with rfl | h
      · rw [List.mem_cons, not_or]
        exact ⟨fun heq => hc heq.symm, ih List.mem_cons_self⟩
      · exact ih (List.mem_cons_of_mem first h)

/-- A text without the character is not cut. -/
theorem cut_of_notMem (h : sep ∉ cs) : cut sep cs = [cs] := by
  induction cs with
  | nil => rfl
  | cons c cs ih =>
    rw [List.mem_cons, not_or] at h
    exact cut_cons_of_ne (fun heq => h.1 heq.symm) (ih h.2)

/-- What stands before the character and what stands behind it are cut by themselves. -/
theorem cut_append_cons (sep : Char) (xs ys : List Char) :
    cut sep (xs ++ sep :: ys) = cut sep xs ++ cut sep ys := by
  induction xs with
  | nil => exact cut_cons_sep sep ys
  | cons c xs ih =>
    by_cases hc : c = sep
    · rw [hc, List.cons_append, cut_cons_sep, ih, cut_cons_sep, List.cons_append]
    · obtain ⟨first, pieces, hcut⟩ := List.exists_cons_of_ne_nil (cut_ne_nil sep xs)
      rw [hcut, List.cons_append] at ih
      rw [List.cons_append, cut_cons_of_ne hc ih, cut_cons_of_ne hc hcut, List.cons_append]

theorem length_cut (sep : Char) (cs : List Char) :
    (cut sep cs).length = cs.count sep + 1 := by
  induction cs with
  | nil => rfl
  | cons c cs ih =>
    by_cases hc : c = sep
    · rw [hc, cut_cons_sep, List.length_cons, ih, List.count_cons_self]
    · obtain ⟨first, pieces, hcut⟩ := List.exists_cons_of_ne_nil (cut_ne_nil sep cs)
      rw [hcut] at ih
      rw [cut_cons_of_ne hc hcut, List.count_cons_of_ne hc, ← ih, List.length_cons,
        List.length_cons]

/-- What is put behind a text without the character belongs to the last piece. -/
theorem exists_cut_append (sep : Char) (cs : List Char) :
    ∃ front last, cut sep cs = front ++ [last] ∧
      ∀ ys, sep ∉ ys → cut sep (cs ++ ys) = front ++ [last ++ ys] := by
  induction cs with
  | nil => exact ⟨[], [], rfl, fun ys h => cut_of_notMem h⟩
  | cons c cs ih =>
    obtain ⟨front, last, hcut, happend⟩ := ih
    by_cases hc : c = sep
    · refine ⟨[] :: front, last, ?_, fun ys h => ?_⟩
      · rw [hc, cut_cons_sep, hcut, List.cons_append]
      · rw [hc, List.cons_append, cut_cons_sep, happend ys h, List.cons_append]
    · cases front with
      | nil =>
        refine ⟨[], c :: last, cut_cons_of_ne hc hcut, fun ys h => ?_⟩
        exact cut_cons_of_ne hc (happend ys h)
      | cons first front =>
        refine ⟨(c :: first) :: front, last, cut_cons_of_ne hc hcut, fun ys h => ?_⟩
        exact cut_cons_of_ne hc (happend ys h)

/-- The last piece is empty only if the text is, or ends with the character. -/
theorem getLast?_of_cut (h : (cut sep cs).getLast? = some []) (hcs : cs ≠ []) :
    cs.getLast? = some sep := by
  induction cs with
  | nil => exact absurd rfl hcs
  | cons c cs ih =>
    obtain ⟨first, pieces, hcut⟩ := List.exists_cons_of_ne_nil (cut_ne_nil sep cs)
    by_cases hnil : cs = []
    · subst hnil
      by_cases hc : c = sep
      · rw [hc]
        rfl
      · rw [cut_cons_of_ne hc rfl] at h
        cases h
    · have hlast : (c :: cs).getLast? = cs.getLast? := by
        obtain ⟨d, ds, rfl⟩ := List.exists_cons_of_ne_nil hnil
        exact List.getLast?_cons_cons
      rw [hlast]
      refine ih ?_ hnil
      by_cases hc : c = sep
      · rw [hc, cut_cons_sep, hcut, List.getLast?_cons_cons] at h
        rwa [hcut]
      · rw [cut_cons_of_ne hc hcut] at h
        cases pieces with
        | nil => cases h
        | cons second pieces =>
          rw [List.getLast?_cons_cons] at h
          rwa [hcut, List.getLast?_cons_cons]

/-- What comes behind the last place of the character stays in one piece with what is put behind
it. -/
theorem exists_getLast?_cut_append {ys : List Char} (h : sep ∉ ys) (xs : List Char) :
    ∃ before, (cut sep (xs ++ ys)).getLast? = some (before ++ ys) := by
  induction xs with
  | nil =>
    rw [List.nil_append, cut_of_notMem h]
    exact ⟨[], rfl⟩
  | cons c xs ih =>
    obtain ⟨before, hlast⟩ := ih
    obtain ⟨first, pieces, hcut⟩ := List.exists_cons_of_ne_nil (cut_ne_nil sep (xs ++ ys))
    rw [hcut] at hlast
    rw [List.cons_append]
    by_cases hc : c = sep
    · rw [hc, cut_cons_sep, hcut, List.getLast?_cons_cons]
      exact ⟨before, hlast⟩
    · rw [cut_cons_of_ne hc hcut]
      cases pieces with
      | nil =>
        obtain rfl : first = before ++ ys := Option.some.inj hlast
        exact ⟨c :: before, rfl⟩
      | cons second pieces =>
        rw [List.getLast?_cons_cons] at hlast ⊢
        exact ⟨before, hlast⟩

end Cut

end IntentGrammar.Text
