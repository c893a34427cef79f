import IntentGrammar.Grammar.Header
import IntentGrammar.Proofs.Pieces
import IntentGrammar.Proofs.Traversal

/-!
# Names in brackets

A name or a variation that is read from between brackets is *tidy*: it is not empty, no white space
surrounds it, and it has none of the characters that mean something there (`Label.reserved`).  This
holds of the parts of every label (`Label.tidy_of_read`), and so of what a header defines
(**`header_of_read`**), whose arguments have different names.
-/

namespace IntentGrammar

open Text

/-! ### Trimmed texts -/

/-- No white space surrounds the text. -/
def Trimmed (cs : List Char) : Prop :=
  (∀ c ∈ cs.head?, isBlank c = false) ∧ ∀ c ∈ cs.getLast?, isBlank c = false

section Trimming

variable {cs : List Char}

theorem trimEnd_isPrefix (cs : List Char) : trimEnd cs <+: cs := by
  rw [trimEnd, ← List.reverse_suffix, List.reverse_reverse]
  exact List.dropWhile_suffix isBlank

theorem trim_subset (cs : List Char) : trim cs ⊆ cs :=
  List.Subset.trans (trimEnd_isPrefix (trimStart cs)).subset (List.dropWhile_sublist isBlank).subset

theorem getLast?_trimEnd {c : Char} (h : c ∈ (trimEnd cs).getLast?) : isBlank c = false := by
  rw [trimEnd, List.getLast?_reverse] at h
  have hhead := List.head?_dropWhile_not isBlank cs.reverse
  rw [Option.mem_def.mp h] at hhead
  simpa using hhead

/-- A first part starts with the same character. -/
theorem head?_trimEnd {c : Char} (h : c ∈ (trimEnd cs).head?) : c ∈ cs.head? := by
  obtain ⟨behind, hcs⟩ := trimEnd_isPrefix cs
  rw [← hcs]
  exact List.mem_head?_append_of_mem_head? h

theorem trimmed_trimEnd (h : ∀ c ∈ cs.head?, isBlank c = false) : Trimmed (trimEnd cs) :=
  ⟨fun c hc => h c (head?_trimEnd hc), fun _ => getLast?_trimEnd⟩

theorem trimmed_trim (cs : List Char) : Trimmed (trim cs) := by
  apply trimmed_trimEnd
  intro c hc
  have hhead := List.head?_dropWhile_not isBlank cs
  rw [← trimStart, Option.mem_def.mp hc] at hhead
  simpa using hhead

/-- Trimming leaves a trimmed text as it is. -/
theorem Trimmed.trim_eq (h : Trimmed cs) : trim cs = cs := by
  have hstart : trimStart cs = cs := by
    rcases cs with _ | ⟨c, cs⟩
    · rfl
    · exact List.dropWhile_cons_of_neg (by simpa using h.1 c rfl)
  rw [trim, hstart, trimEnd]
  rcases hreverse : cs.reverse with _ | ⟨c, rest⟩
  · rw [List.reverse_eq_nil_iff.mp hreverse]
    rfl
  · have hlast : cs.getLast? = some c := by
      rw [← List.head?_reverse, hreverse]
      rfl
    rw [List.dropWhile_cons_of_neg (by simpa using h.2 c hlast), ← hreverse, List.reverse_reverse]

end Trimming

/-! ### Labels -/

/-- The characters that are no part of a name: those with a meaning between brackets, the brackets,
and the end of a line. -/
def Label.reserved : List Char := ['#', '?', '[', ']', '\n']

/-- A name that can be written between brackets. -/
structure Tidy (name : String) : Prop where
  ne_empty : name ≠ ""
  trimmed : trim name.toList = name.toList
  free (c : Char) : c ∈ Label.reserved → c ∉ name.toList

/-- Both parts of a label are tidy. -/
def TidyParts (name : String) (variation : Option String) : Prop :=
  Tidy name ∧ ∀ v ∈ variation, Tidy v

section Labels

variable {body text : List Char}

/-- A trimmed part of a text on one line, without the characters that have been looked for. -/
theorem tidy_ofList (hplain : Plain text) (hline : '\n' ∉ text) (hsub : body ⊆ text)
    (hempty : body ≠ []) (htrimmed : Trimmed body) (hhash : '#' ∉ body) (hmark : '?' ∉ body) :
    Tidy (String.ofList body) where
  ne_empty := by
    intro h
    apply hempty
    have hlist := congrArg String.toList h
    rwa [String.toList_ofList] at hlist
  trimmed := by
    rw [String.toList_ofList]
    exact htrimmed.trim_eq
  free := by
    intro c hc
    rw [String.toList_ofList]
    simp only [Label.reserved, List.mem_cons, List.not_mem_nil, or_false] at hc
    rcases hc with rfl | rfl | rfl | rfl | rfl
    · exact hhash
    · exact hmark
    · exact fun h => hplain.notMem (c := '[') rfl (hsub h)
    · exact fun h => hplain.notMem (c := ']') rfl (hsub h)
    · exact fun h => hline (hsub h)

/-- The parts that a `#` separates. -/
theorem tidyParts_of_split {optional : Bool} {label : Label} (hplain : Plain text)
    (hline : '\n' ∉ text) (htrimmed : Trimmed text) (hmark : '?' ∉ text)
    (h : Label.split text optional = .ok label) : TidyParts label.name label.variation := by
  unfold Label.split at h
  split at h
  · next hdrop =>
    split at h
    · cases h
    · next hsome =>
      cases h
      have hhash : '#' ∉ text := by
        intro hmem
        have hnone := List.dropWhile_eq_nil_iff.mp hdrop '#' hmem
        simp at hnone
      refine ⟨?_, nofun⟩
      exact tidy_ofList hplain hline (List.Subset.refl text) (by simpa using hsome) htrimmed hhash
        hmark
  · next c behind hdrop =>
    have hfront : trim (text.takeWhile (· != '#')) ⊆ text :=
      List.Subset.trans (trim_subset _) (List.takeWhile_sublist _).subset
    have hbehind : trim behind ⊆ text := by
      have htail : behind ⊆ text.dropWhile (· != '#') := by
        rw [hdrop]
        exact List.subset_cons_self c behind
      exact List.Subset.trans (trim_subset behind)
        (List.Subset.trans htail (List.dropWhile_sublist _).subset)
    simp only [List.isEmpty_iff] at h
    split at h
    · cases h
    · next hname =>
      split at h
      · cases h
      · next hvariation =>
        split at h
        · cases h
        · next hhash =>
          cases h
          refine ⟨?_, ?_⟩
          · refine tidy_ofList hplain hline hfront hname (trimmed_trim _) (fun hmem => ?_)
              (fun hmem => hmark (hfront hmem))
            have hnot := List.mem_takeWhile_imp (trim_subset _ hmem)
            simp at hnot
          · rintro v ⟨⟩
            exact tidy_ofList hplain hline hbehind hvariation (trimmed_trim _) hhash
              (fun hmem => hmark (hbehind hmem))

/-- **What is read between brackets is tidy.** -/
theorem Label.tidy_of_read {label : Label} (hplain : Plain body) (hline : '\n' ∉ body)
    (h : Label.read body = .ok label) : TidyParts label.name label.variation := by
  unfold Label.read at h
  -- without its final mark the text is still trimmed, and a part of what stands in the brackets
  have htext (text : List Char) (hsub : text ⊆ body) (htrimmed : Trimmed text) (optional : Bool)
      (h : (if '?' ∈ text then .error .misplacedOptionalMark else Label.split text optional)
        = Except.ok label) : TidyParts label.name label.variation := by
    split at h
    · cases h
    · next hmark =>
      exact tidyParts_of_split (fun c hc => hplain c (hsub hc)) (fun hc => hline (hsub hc))
        htrimmed hmark h
  simp only at h
  split at h
  · have hdrop : (trim body).dropLast ⊆ body :=
      List.Subset.trans (List.dropLast_subset _) (trim_subset body)
    refine htext _ (List.Subset.trans (trimEnd_isPrefix _).subset hdrop)
      (trimmed_trimEnd fun c hc => ?_) _ h
    apply (trimmed_trim body).1
    rw [List.head?_dropLast] at hc
    split at hc
    · exact hc
    · cases hc
  · exact htext _ (trim_subset body) (trimmed_trim body) _ h

end Labels

/-! ### Headers -/

/-- No two arguments have the same name if none is found to be repeated. -/
theorem nodup_of_firstRepeated? {seen : List String} {arguments : List Argument}
    (h : firstRepeated? seen arguments = none) :
    (arguments.map (·.name)).Nodup ∧ ∀ a ∈ arguments, a.name ∉ seen := by
  induction arguments generalizing seen with
  | nil => exact ⟨List.nodup_nil, nofun⟩
  | cons a arguments ih =>
    rw [firstRepeated?] at h
    split at h
    · cases h
    · next hfresh =>
      obtain ⟨hnodup, hseen⟩ := ih h
      constructor
      · rw [List.map_cons, List.nodup_cons]
        refine ⟨fun hmem => ?_, hnodup⟩
        obtain ⟨b, hb, hname⟩ := List.mem_map.mp hmem
        exact hseen b hb (hname ▸ List.mem_cons_self)
      · rintro b (_ | ⟨_, hb⟩)
        · exact hfresh
        · exact fun hmem => hseen b hb (List.mem_cons_of_mem _ hmem)

theorem nodup_of_readArgumentList {opened : Nat} {cs rest : List Char}
    {arguments : List (String × String)}
    (h : readArgumentList opened cs = .ok (arguments, rest)) :
    (arguments.map Prod.fst).Nodup := by
  have hnames (read : List Argument) (hnone : firstRepeated? [] read = none) :
      ((read.map fun a => (a.name, a.value)).map Prod.fst).Nodup := by
    rw [List.map_map]
    exact (nodup_of_firstRepeated? hnone).1
  obtain ⟨first, -, h⟩ := bind_eq_ok_iff.mp h
  rcases first with _ | ⟨first, behind⟩
  · obtain ⟨⟨read, behind⟩, hread, h⟩ := bind_eq_ok_iff.mp h
    cases hread
    obtain ⟨closed, -, h⟩ := bind_eq_ok_iff.mp h
    split at h
    · cases h
    · next hnone =>
      cases h
      exact hnames [] hnone
  · obtain ⟨⟨others, behind⟩, -, h⟩ := bind_eq_ok_iff.mp h
    obtain ⟨⟨read, behind⟩, hread, h⟩ := bind_eq_ok_iff.mp h
    cases hread
    obtain ⟨closed, -, h⟩ := bind_eq_ok_iff.mp h
    split at h
    · cases h
    · next hnone =>
      cases h
      exact hnames (first :: others) hnone

/-- What is known of the key and the arguments in a header. -/
structure HeaderSound (key : Key) (arguments : List (String × String)) : Prop where
  tidy : TidyParts key.name key.variation
  intent : key.kind = .intent → key.variation = none
  nodup : (arguments.map Prod.fst).Nodup

/-- The end of a header: nothing follows its arguments. -/
theorem end_of_header {key key' : Key} {arguments arguments' : List (String × String)}
    {rest : List Char}
    (h : (do
        if !(skipIndent rest).isEmpty then throw ⟨.textAfterHeader, (skipIndent rest).length⟩
        return (key, arguments) : Except Stop (Key × List (String × String)))
      = .ok (key', arguments')) : key' = key ∧ arguments' = arguments := by
  split at h
  · cases h
  · cases h
    exact ⟨rfl, rfl⟩

/-- **What a header defines** has a tidy name, and an intent has no variation. -/
theorem header_of_read {cs : List Char} {key : Key} {arguments : List (String × String)}
    (hline : '\n' ∉ cs) (h : readHeader cs = .ok (key, arguments)) :
    HeaderSound key arguments := by
  unfold readHeader at h
  split at h
  · next c inner =>
    simp only at h
    split at h
    · next kind _ =>
      obtain ⟨⟨body, rest⟩, hbody, h⟩ := bind_eq_ok_iff.mp h
      obtain ⟨label, hlabel, h⟩ := bind_eq_ok_iff.mp h
      obtain ⟨hplain, rfl⟩ := bracketBody_eq_ok_iff.mp hbody
      have hbodyLine : '\n' ∉ body := fun hmem => hline (by simp [hmem])
      have htidy := Label.tidy_of_read hplain hbodyLine (mapError_eq_ok_iff.mp hlabel)
      split at h
      · cases h
      · split at h
        · cases h
        · next hintent =>
          have hvariation : kind = .intent → label.variation = none := by
            intro hkind
            rw [not_and] at hintent
            simpa using hintent hkind
          split at h
          · obtain ⟨⟨read, behind⟩, hread, h⟩ := bind_eq_ok_iff.mp h
            obtain ⟨rfl, rfl⟩ := end_of_header h
            exact ⟨htidy, hvariation, nodup_of_readArgumentList hread⟩
          · obtain ⟨rfl, rfl⟩ := end_of_header h
            exact ⟨htidy, hvariation, List.nodup_nil⟩
    · cases h
  · cases h

end IntentGrammar
