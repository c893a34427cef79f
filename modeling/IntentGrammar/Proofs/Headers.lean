import IntentGrammar.Proofs.Readings

/-!
# The form of a header

A header is a sigil, a name in brackets, and perhaps a list of arguments in parentheses, with gaps
of spaces and tabs between the parts (`HeaderText`).  The list is a first argument and further ones
behind commas, or nothing, and a last comma is allowed.

The comma between two arguments is also the one that may end the list.  The reader takes it for the
former and goes back if no argument follows; that this is enough is seen from what stands behind
the last argument, where no value can start (`Closing`).  So the reader accepts just the texts of
this form (**`headers_are_read_whole`**).
-/

namespace IntentGrammar

open Text

/-! ### Values -/

/-- A run of spaces and tabs. -/
def Gap (cs : List Char) : Prop := ∀ c ∈ cs, isIndent c = true

/-- The text of a value, and what it says: a text between two quotes of one kind that has no such
quote, or a bare word.  What follows a value in a header is never a character of a bare word, so a
bare word is as long as it can be. -/
inductive ValueText : List Char → String → Prop
  | quoted {quote : Char} {body : List Char} : quote = '\'' ∨ quote = '"' → quote ∉ body →
      ValueText (quote :: (body ++ [quote])) (String.ofList body)
  | bare {word : List Char} : word ≠ [] → (∀ c ∈ word, isBare c = true) →
      ValueText word (String.ofList word)

/-- No bare word goes on in the text. -/
def EndsWord (cs : List Char) : Prop := ∀ c ∈ cs.head?, isBare c = false

section Values

variable {cs rest text value : List Char} {s : String}

theorem isBare_quote {quote : Char} (h : quote = '\'' ∨ quote = '"') : isBare quote = false := by
  rcases h with rfl | rfl
  · decide +kernel
  · decide +kernel

theorem isBare_of_isIndent {c : Char} (h : isIndent c = true) : isBare c = false := by
  rw [isIndent, Bool.or_eq_true, decide_eq_true_eq, decide_eq_true_eq] at h
  rcases h with rfl | rfl
  · decide +kernel
  · decide +kernel

theorem readQuoted_eq_ok_iff {quote : Char} {opened : Nat} :
    readQuoted quote opened cs = .ok (value, rest) ↔
      quote ∉ value ∧ cs = value ++ quote :: rest := by
  rw [readQuoted]
  constructor
  · intro h
    have hcut := List.takeWhile_append_dropWhile (p := (· != quote)) (l := cs)
    split at h
    · cases h
    · next c tail hdrop =>
      cases h
      have hc : c = quote := by
        have hhead := List.head?_dropWhile_not (· != quote) cs
        rw [hdrop] at hhead
        simpa using hhead
      rw [hdrop, hc] at hcut
      refine ⟨fun hmem => ?_, hcut.symm⟩
      have hnot := List.mem_takeWhile_imp hmem
      simp at hnot
  · rintro ⟨hvalue, rfl⟩
    have hne : ∀ c ∈ value, (c != quote) = true := by
      intro c hc
      rw [bne_iff_ne]
      rintro rfl
      exact hvalue hc
    rw [List.dropWhile_append_of_pos hne, List.takeWhile_append_of_pos hne]
    simp

/-- What is read as a value is the text of one. -/
theorem valueText_of_readValue? (h : readValue? cs = .ok (some (value, rest))) :
    ∃ text, cs = text ++ rest ∧ ValueText text (String.ofList value) := by
  rcases cs with _ | ⟨c, tail⟩
  · cases h
  rw [readValue?] at h
  split at h
  · next hquote =>
    rcases hread : readQuoted c (c :: tail).length tail with stop | ⟨body, behind⟩
    · rw [hread] at h
      cases h
    · rw [hread] at h
      cases h
      obtain ⟨hbody, rfl⟩ := readQuoted_eq_ok_iff.mp hread
      exact ⟨c :: (value ++ [c]), by simp, .quoted hquote hbody⟩
  · split at h
    · next hbare =>
      cases h
      refine ⟨_, List.takeWhile_append_dropWhile.symm, .bare ?_ fun _ => List.mem_takeWhile_imp⟩
      rw [List.takeWhile_cons_of_pos hbare]
      exact List.cons_ne_nil _ _
    · cases h

/-- The text of a value is read as such where no bare word goes on. -/
theorem ValueText.read (h : ValueText text s) (hrest : EndsWord rest) :
    readValue? (text ++ rest) = .ok (some (s.toList, rest)) := by
  cases h with
  | @quoted quote body hquote hbody =>
    have hread (opened : Nat) : readQuoted quote opened (body ++ [quote] ++ rest)
        = .ok (body, rest) := readQuoted_eq_ok_iff.mpr ⟨hbody, by simp⟩
    rw [List.cons_append, readValue?, if_pos hquote, hread, String.toList_ofList]
    rfl
  | @bare word hsome hword =>
    obtain ⟨c, tail, rfl⟩ := List.exists_cons_of_ne_nil hsome
    have hc : isBare c = true := hword c List.mem_cons_self
    have hquote : ¬(c = '\'' ∨ c = '"') := by
      intro hquote
      rw [isBare_quote hquote] at hc
      cases hc
    have hstop : rest.takeWhile isBare = [] ∧ rest.dropWhile isBare = rest := by
      rcases rest with _ | ⟨d, rest⟩
      · exact ⟨rfl, rfl⟩
      · have hd : ¬isBare d = true := by simpa using hrest d rfl
        exact ⟨List.takeWhile_cons_of_neg hd, List.dropWhile_cons_of_neg hd⟩
    have hvalue : (c :: (tail ++ rest)).takeWhile isBare = c :: tail ∧
        (c :: (tail ++ rest)).dropWhile isBare = rest := by
      rw [← List.cons_append, List.takeWhile_append_of_pos hword,
        List.dropWhile_append_of_pos hword, hstop.1, hstop.2, List.append_nil]
      exact ⟨rfl, rfl⟩
    rw [List.cons_append, readValue?, if_neg hquote, if_pos hc, hvalue.1, hvalue.2,
      String.toList_ofList]

end Values

/-! ### Pairs -/

/-- The text of an argument, with its name and its value. -/
inductive PairText : List Char → String × String → Prop
  | mk {name gap gap' value : List Char} {n v : String} : ValueText name n → Gap gap → Gap gap' →
      ValueText value v → PairText (name ++ (gap ++ ':' :: (gap' ++ value))) (n, v)

/-- The texts of further arguments, each behind a comma. -/
inductive FurtherText : List Char → List (String × String) → Prop
  | none : FurtherText [] []
  | more {gap gap' pair cs : List Char} {a : String × String} {as : List (String × String)} :
      Gap gap → Gap gap' → PairText pair a → FurtherText cs as →
      FurtherText (gap ++ ',' :: (gap' ++ (pair ++ cs))) (a :: as)

/-- The end of a list of arguments: a comma or none, and the parenthesis, behind gaps. -/
inductive Closing : List Char → List Char → Prop
  | mk {gap comma gap' rest : List Char} : Gap gap → comma = [] ∨ comma = [','] → Gap gap' →
      Closing (gap ++ (comma ++ (gap' ++ ')' :: rest))) rest

/-- The name and the value of an argument. -/
def Argument.pair (a : Argument) : String × String := (a.name, a.value)

section Pairs

variable {cs rest text gap : List Char} {a : Argument}

theorem isIndent_comma : isIndent ',' = false := by decide
theorem isIndent_colon : isIndent ':' = false := by decide
theorem isIndent_close : isIndent ')' = false := by decide

theorem Gap.append {gap' : List Char} (h : Gap gap) (h' : Gap gap') : Gap (gap ++ gap') :=
  fun c hc => (List.mem_append.mp hc).elim (h c) (h' c)

/-- A gap is skipped as far as it goes. -/
theorem Gap.skip (h : Gap gap) (hrest : ∀ c ∈ rest.head?, isIndent c = false) :
    skipIndent (gap ++ rest) = rest := skipIndent_eq_iff.mpr ⟨gap, rfl, h, hrest⟩

theorem Gap.skip_cons (h : Gap gap) {c : Char} (hc : isIndent c = false) (rest : List Char) :
    skipIndent (gap ++ c :: rest) = c :: rest := by
  apply h.skip
  rintro d ⟨⟩
  exact hc

theorem length_skipIndent_le (cs : List Char) : (skipIndent cs).length ≤ cs.length :=
  length_dropWhile_le isIndent cs

/-- What is skipped is a gap. -/
theorem exists_gap (cs : List Char) : ∃ gap, Gap gap ∧ cs = gap ++ skipIndent cs := by
  obtain ⟨gap, hcs, hgap, -⟩ := skipIndent_eq_iff.mp (rfl : skipIndent cs = skipIndent cs)
  exact ⟨gap, hgap, hcs⟩

/-- A word ends where a gap or a mark comes. -/
theorem Gap.endsWord (h : Gap gap) {c : Char} (hc : isBare c = false) (rest : List Char) :
    EndsWord (gap ++ c :: rest) := by
  rcases gap with _ | ⟨d, gap⟩
  · rintro _ ⟨⟩
    exact hc
  · rintro _ ⟨⟩
    exact isBare_of_isIndent (h d List.mem_cons_self)

/-- A value starts with no space or tab. -/
theorem ValueText.isIndent_head {s : String} (h : ValueText text s) (rest : List Char) :
    ∀ c ∈ (text ++ rest).head?, isIndent c = false := by
  cases h with
  | @quoted quote body hquote =>
    rintro _ ⟨⟩
    rcases hquote with rfl | rfl
    · decide
    · decide
  | bare hsome hword =>
    obtain ⟨c, tail, rfl⟩ := List.exists_cons_of_ne_nil hsome
    rintro _ ⟨⟩
    by_contra hindent
    have hbare := isBare_of_isIndent (Bool.eq_true_of_not_eq_false hindent)
    rw [hword c List.mem_cons_self] at hbare
    cases hbare

/-- What is read as an argument is the text of one. -/
theorem pairText_of_readArgument? (h : readArgument? cs = .ok (some (a, rest))) :
    ∃ text, cs = text ++ rest ∧ PairText text a.pair := by
  obtain ⟨name, hname, h⟩ := bind_eq_ok_iff.mp h
  rcases name with _ | ⟨name, behind⟩
  · cases h
  obtain ⟨nameText, rfl, hnameText⟩ := valueText_of_readValue? hname
  obtain ⟨gap, hgap, hbehind⟩ := exists_gap behind
  simp only at h
  split at h
  · next tail hcolon =>
    obtain ⟨value, hvalue, h⟩ := bind_eq_ok_iff.mp h
    rcases value with _ | ⟨value, behind'⟩
    · cases h
    cases h
    obtain ⟨valueText, hskip, hvalueText⟩ := valueText_of_readValue? hvalue
    obtain ⟨gap', hgap', htail⟩ := exists_gap tail
    refine ⟨_, ?_, .mk hnameText hgap hgap' hvalueText⟩
    rw [hbehind, hcolon, htail, hskip]
    simp
  · cases h

theorem length_of_readArgument? (h : readArgument? cs = .ok (some (a, rest))) :
    rest.length ≤ cs.length := by
  obtain ⟨text, rfl, -⟩ := pairText_of_readArgument? h
  simp

/-- The text of an argument is read as such where no bare word goes on. -/
theorem PairText.read {p : String × String} (h : PairText text p) (hrest : EndsWord rest) :
    ∃ a, readArgument? (text ++ rest) = .ok (some (a, rest)) ∧ a.pair = p := by
  cases h with
  | @mk name gap gap' value n v hname hgap hgap' hvalue =>
    have hcut : name ++ (gap ++ ':' :: (gap' ++ value)) ++ rest
        = name ++ (gap ++ ':' :: (gap' ++ (value ++ rest))) := by simp
    have hcolon : isBare ':' = false := by decide +kernel
    refine ⟨⟨(name ++ (gap ++ ':' :: (gap' ++ (value ++ rest)))).length, n, v⟩, ?_, rfl⟩
    rw [hcut, readArgument?, hname.read (hgap.endsWord hcolon _)]
    refine bind_eq_ok_iff.mpr ⟨_, rfl, ?_⟩
    simp only [hgap.skip_cons isIndent_colon]
    rw [hgap'.skip (hvalue.isIndent_head rest), hvalue.read hrest]
    refine bind_eq_ok_iff.mpr ⟨_, rfl, ?_⟩
    simp only [String.ofList_toList]
    rfl

/-- The text of an argument starts with no space or tab. -/
theorem PairText.isIndent_head {p : String × String} (h : PairText text p) (rest : List Char) :
    ∀ c ∈ (text ++ rest).head?, isIndent c = false := by
  cases h with
  | mk hname =>
    rw [List.append_assoc]
    exact hname.isIndent_head _

end Pairs

/-! ### Lists of arguments -/

/-- The text of a list of arguments in parentheses, no two with the same name. -/
inductive ArgumentsText : List Char → List (String × String) → Prop
  | none {gap end_ : List Char} : Gap gap → Closing end_ [] →
      ArgumentsText ('(' :: (gap ++ end_)) []
  | some {gap first further end_ : List Char} {a : String × String} {as : List (String × String)} :
      Gap gap → PairText first a → FurtherText further as → Closing end_ [] →
      ((a :: as).map Prod.fst).Nodup →
      ArgumentsText ('(' :: (gap ++ (first ++ (further ++ end_)))) (a :: as)

section Lists

variable {cs rest text behind : List Char} {as : List Argument} {ps : List (String × String)}

/-- No argument starts with a mark. -/
theorem readArgument?_of_mark {c : Char} (hquote : ¬(c = '\'' ∨ c = '"')) (hbare : isBare c = false)
    (rest : List Char) : readArgument? (c :: rest) = .ok none := by
  have hvalue : readValue? (c :: rest) = .ok none := by
    rw [readValue?, if_neg hquote, hbare]
    rfl
  rw [readArgument?, hvalue]
  rfl

theorem readArgument?_close (rest : List Char) : readArgument? (')' :: rest) = .ok none :=
  readArgument?_of_mark (by decide) (by decide +kernel) rest

theorem readArgument?_comma (rest : List Char) : readArgument? (',' :: rest) = .ok none :=
  readArgument?_of_mark (by decide) (by decide +kernel) rest

theorem Closing.endsWord (h : Closing cs rest) : EndsWord cs := by
  have hclose : isBare ')' = false := by decide +kernel
  have hcomma : isBare ',' = false := by decide +kernel
  cases h with
  | @mk gap comma gap' rest hgap hsome hgap' =>
    rcases hsome with rfl | rfl
    · rw [List.nil_append, ← List.append_assoc]
      exact (hgap.append hgap').endsWord hclose rest
    · exact hgap.endsWord hcomma _

theorem FurtherText.endsWord (h : FurtherText text ps) (hrest : Closing rest behind) :
    EndsWord (text ++ rest) := by
  have hcomma : isBare ',' = false := by decide +kernel
  cases h with
  | none => exact hrest.endsWord
  | more hgap _ _ _ =>
    rw [List.append_assoc]
    exact hgap.endsWord hcomma _

/-- What are read as further arguments are the texts of such. -/
theorem furtherText_of_readArguments {fuel : Nat} (h : readArguments fuel cs = .ok (as, rest)) :
    ∃ text, cs = text ++ rest ∧ FurtherText text (as.map Argument.pair) := by
  induction fuel generalizing cs as with
  | zero =>
    rw [readArguments] at h
    · cases h
      exact ⟨[], rfl, .none⟩
    · rintro _ _ ⟨⟩
  | succ fuel ih =>
    obtain ⟨gap, hgap, hcs⟩ := exists_gap cs
    unfold readArguments at h
    split at h
    · next fuel' tail hfuel hcomma =>
      obtain rfl : fuel = fuel' := Nat.succ.inj hfuel
      obtain ⟨argument, hargument, h⟩ := bind_eq_ok_iff.mp h
      rcases argument with _ | ⟨argument, behind⟩
      · -- the comma is left in place
        cases h
        exact ⟨[], rfl, .none⟩
      obtain ⟨⟨others, behind'⟩, hothers, h⟩ := bind_eq_ok_iff.mp h
      cases h
      obtain ⟨gap', hgap', htail⟩ := exists_gap tail
      obtain ⟨pair, hskip, hpair⟩ := pairText_of_readArgument? hargument
      obtain ⟨further, rfl, hfurther⟩ := ih hothers
      refine ⟨_, ?_, .more hgap hgap' hpair hfurther⟩
      rw [hcs, hcomma, htail, hskip]
      simp
    · cases h
      exact ⟨[], rfl, .none⟩

/-- Reading ends where the list does: a last comma has no argument behind it. -/
theorem Closing.readArguments (h : Closing rest behind) (fuel : Nat) :
    readArguments fuel rest = .ok ([], rest) := by
  unfold IntentGrammar.readArguments
  split
  · next tail _ hcomma =>
    cases h with
    | @mk gap comma gap' behind hgap hsome hgap' =>
      rcases hsome with rfl | rfl
      · rw [List.nil_append, ← List.append_assoc,
          (hgap.append hgap').skip_cons isIndent_close] at hcomma
        cases hcomma
      · rw [List.singleton_append, hgap.skip_cons isIndent_comma] at hcomma
        cases hcomma
        rw [hgap'.skip_cons isIndent_close, readArgument?_close]
        rfl
  · rfl

/-- The texts of further arguments are read as such up to the end of the list. -/
theorem FurtherText.read (h : FurtherText text ps) (hrest : Closing rest behind) {fuel : Nat}
    (hfuel : text.length ≤ fuel) :
    ∃ as, readArguments fuel (text ++ rest) = .ok (as, rest) ∧ as.map Argument.pair = ps := by
  induction h generalizing fuel with
  | none => exact ⟨[], hrest.readArguments fuel, rfl⟩
  | @more gap gap' pair further p ps hgap hgap' hpair hfurther ih =>
    obtain ⟨fuel, rfl⟩ : ∃ k, fuel = k + 1 := by
      refine Nat.exists_eq_succ_of_ne_zero ?_
      rintro rfl
      simp at hfuel
    have hshort : further.length ≤ fuel := by
      simp only [List.length_append, List.length_cons] at hfuel
      omega
    obtain ⟨as, has, rfl⟩ := ih hshort
    obtain ⟨a, ha, rfl⟩ := hpair.read (hfurther.endsWord hrest)
    have hcut : gap ++ ',' :: (gap' ++ (pair ++ further)) ++ rest
        = gap ++ ',' :: (gap' ++ (pair ++ (further ++ rest))) := by simp
    refine ⟨a :: as, ?_, rfl⟩
    rw [hcut]
    unfold readArguments
    rw [hgap.skip_cons isIndent_comma]
    simp only
    rw [hgap'.skip (hpair.isIndent_head _), ha]
    refine bind_eq_ok_iff.mpr ⟨_, rfl, ?_⟩
    simp only
    rw [has]
    rfl

/-- Nothing but a parenthesis ends a list. -/
theorem eq_of_close {opened : Nat} (h : (match cs with
    | [] => .error ⟨.unclosedArguments, opened⟩
    | c :: behind => if c = ')' then .ok behind else .error ⟨.expectedComma c, cs.length⟩)
      = (.ok rest : Except Stop (List Char))) : cs = ')' :: rest := by
  split at h
  · cases h
  · split at h
    · next hc =>
      cases h
      rw [hc]
    · cases h

theorem closeArguments_eq_ok_iff {opened : Nat} :
    closeArguments opened cs = .ok rest ↔ Closing cs rest := by
  constructor
  · intro h
    obtain ⟨gap, hgap, hcs⟩ := exists_gap cs
    have hclose := eq_of_close h
    split at hclose
    · next tail hcomma =>
      obtain ⟨gap', hgap', htail⟩ := exists_gap tail
      rw [hcs, hcomma, htail, hclose]
      exact .mk hgap (.inr rfl) hgap'
    · rw [hcs, hclose]
      exact .mk hgap (.inl rfl) (List.forall_mem_nil _)
  · intro h
    cases h with
    | @mk gap comma gap' rest hgap hsome hgap' =>
      rw [closeArguments]
      rcases hsome with rfl | rfl
      · rw [List.nil_append, ← List.append_assoc, (hgap.append hgap').skip_cons isIndent_close]
        rfl
      · rw [List.singleton_append, hgap.skip_cons isIndent_comma]
        simp only [hgap'.skip_cons isIndent_close]
        rfl

theorem map_fst_pair (as : List Argument) :
    (as.map Argument.pair).map Prod.fst = as.map (·.name) := by
  rw [List.map_map]
  rfl

/-- A name is found to be repeated just if one is. -/
theorem firstRepeated?_eq_none_iff {seen : List String} : firstRepeated? seen as = none ↔
    (as.map (·.name)).Nodup ∧ ∀ a ∈ as, a.name ∉ seen := by
  refine ⟨nodup_of_firstRepeated?, ?_⟩
  rintro ⟨hnodup, hfresh⟩
  induction as generalizing seen with
  | nil => rfl
  | cons a as ih =>
    rw [List.map_cons, List.nodup_cons] at hnodup
    rw [firstRepeated?, if_neg (hfresh a List.mem_cons_self)]
    refine ih hnodup.2 fun b hb hmem => ?_
    rcases List.mem_cons.mp hmem with hname | hmem
    · exact hnodup.1 (hname ▸ List.mem_map_of_mem hb)
    · exact hfresh b (List.mem_cons_of_mem a hb) hmem

theorem Closing.exists_end (h : Closing cs rest) : ∃ end_, cs = end_ ++ rest ∧ Closing end_ [] := by
  cases h with
  | @mk gap comma gap' _ hgap hcomma hgap' =>
    exact ⟨gap ++ (comma ++ (gap' ++ [')'])), by simp, .mk hgap hcomma hgap'⟩

theorem Closing.append {end_ : List Char} (h : Closing end_ []) (rest : List Char) :
    Closing (end_ ++ rest) rest := by
  cases h with
  | @mk gap comma gap' _ hgap hcomma hgap' =>
    have hcut : gap ++ (comma ++ (gap' ++ [')'])) ++ rest
        = gap ++ (comma ++ (gap' ++ ')' :: rest)) := by simp
    rw [hcut]
    exact .mk hgap hcomma hgap'

/-- The end of a list may have a gap in front. -/
theorem Closing.of_gap {gap : List Char} (hgap : Gap gap) (h : Closing cs rest) :
    Closing (gap ++ cs) rest := by
  cases h with
  | @mk gap' comma gap'' _ hgap' hcomma hgap'' =>
    rw [← List.append_assoc]
    exact .mk (hgap.append hgap') hcomma hgap''

/-- At the end of a list there is no argument. -/
theorem Closing.readArgument? (h : Closing cs rest) :
    readArgument? (skipIndent cs) = .ok none := by
  cases h with
  | @mk gap comma gap' rest hgap hsome hgap' =>
    rcases hsome with rfl | rfl
    · rw [List.nil_append, ← List.append_assoc, (hgap.append hgap').skip_cons isIndent_close]
      exact readArgument?_close rest
    · rw [List.singleton_append, hgap.skip_cons isIndent_comma]
      exact readArgument?_comma _

theorem skipIndent_skipIndent (cs : List Char) : skipIndent (skipIndent cs) = skipIndent cs :=
  List.dropWhile_idempotent isIndent cs

/-- The end of a list is found behind the gap that it may start with. -/
theorem Closing.closeArguments (h : Closing cs rest) (opened : Nat) :
    closeArguments opened (skipIndent cs) = .ok rest := by
  rw [← closeArguments_eq_ok_iff.mpr h, IntentGrammar.closeArguments, IntentGrammar.closeArguments,
    skipIndent_skipIndent]

theorem readArgumentList_eq_ok_iff {opened : Nat} :
    readArgumentList opened cs = .ok (ps, rest) ↔
      ∃ text, '(' :: cs = text ++ rest ∧ ArgumentsText text ps := by
  constructor
  · intro h
    obtain ⟨gap, hgap, hcs⟩ := exists_gap cs
    obtain ⟨first, hfirst, h⟩ := bind_eq_ok_iff.mp h
    rcases first with _ | ⟨first, behind⟩
    · -- no argument: the list has to end behind the gap
      obtain ⟨⟨read, behind⟩, hread, h⟩ := bind_eq_ok_iff.mp h
      cases hread
      obtain ⟨closed, hclosed, h⟩ := bind_eq_ok_iff.mp h
      cases h
      obtain ⟨end_, hend, hclosing⟩ := (closeArguments_eq_ok_iff.mp hclosed).exists_end
      exact ⟨_, by rw [hcs, hend]; simp, .none hgap hclosing⟩
    · obtain ⟨⟨others, behind'⟩, hothers, h⟩ := bind_eq_ok_iff.mp h
      obtain ⟨⟨read, behind''⟩, hread, h⟩ := bind_eq_ok_iff.mp h
      cases hread
      obtain ⟨closed, hclosed, h⟩ := bind_eq_ok_iff.mp h
      split at h
      · cases h
      · next hnone =>
        cases h
        obtain ⟨pair, hskip, hpair⟩ := pairText_of_readArgument? hfirst
        obtain ⟨further, rfl, hfurther⟩ := furtherText_of_readArguments hothers
        obtain ⟨end_, rfl, hclosing⟩ := (closeArguments_eq_ok_iff.mp hclosed).exists_end
        have hnodup := (firstRepeated?_eq_none_iff.mp hnone).1
        refine ⟨_, ?_, .some hgap hpair hfurther hclosing ?_⟩
        · rw [hcs, hskip]
          simp
        · show (((first :: others).map Argument.pair).map Prod.fst).Nodup
          rwa [map_fst_pair]
  · rintro ⟨text, htext, h⟩
    cases h with
    | @none gap end_ hgap hend =>
      have hclosing : Closing cs rest := by
        have hcs : cs = gap ++ (end_ ++ rest) := by simpa using htext
        rw [hcs]
        exact .of_gap hgap (hend.append rest)
      refine bind_eq_ok_iff.mpr ⟨none, hclosing.readArgument?, ?_⟩
      refine bind_eq_ok_iff.mpr ⟨_, rfl, ?_⟩
      exact bind_eq_ok_iff.mpr ⟨_, hclosing.closeArguments opened, rfl⟩
    | @some gap first further end_ p ps hgap hpair hfurther hend hnodup =>
      have hcs : cs = gap ++ (first ++ (further ++ (end_ ++ rest))) := by simpa using htext
      -- the text is read from its end: each part needs to know that what follows ends a word
      have hclosing := hend.append rest
      obtain ⟨a, ha, rfl⟩ := hpair.read (hfurther.endsWord hclosing)
      have hlength : further.length ≤ (further ++ (end_ ++ rest)).length := by simp
      obtain ⟨as, has, rfl⟩ := hfurther.read hclosing hlength
      have hnone : firstRepeated? [] (a :: as) = none := by
        have hnames : (((a :: as).map Argument.pair).map Prod.fst).Nodup := hnodup
        rw [map_fst_pair] at hnames
        exact firstRepeated?_eq_none_iff.mpr ⟨hnames, fun _ _ => List.not_mem_nil⟩
      have hskip : skipIndent cs = first ++ (further ++ (end_ ++ rest)) := by
        rw [hcs, hgap.skip (hpair.isIndent_head _)]
      rw [readArgumentList, hskip]
      refine bind_eq_ok_iff.mpr ⟨_, ha, ?_⟩
      refine bind_eq_ok_iff.mpr ⟨_, has, ?_⟩
      refine bind_eq_ok_iff.mpr ⟨_, rfl, ?_⟩
      refine bind_eq_ok_iff.mpr ⟨_, closeArguments_eq_ok_iff.mpr hclosing, ?_⟩
      rw [hnone]
      rfl

end Lists

/-! ### The theorem -/

/-- The text of a header, with the key and the arguments that it gives. -/
inductive HeaderText : List Char → Key → List (String × String) → Prop
  | mk {kind : Kind} {body gap list gap' : List Char} {label : Label}
      {arguments : List (String × String)} :
      Plain body → Label.read body = .ok label → label.optional = false →
      (kind = .intent → label.variation = none) → Gap gap →
      list = [] ∧ arguments = [] ∨ ArgumentsText list arguments → Gap gap' →
      HeaderText (kind.sigil :: '[' :: (body ++ ']' :: (gap ++ (list ++ gap'))))
        ⟨kind, label.name, label.variation⟩ arguments

section Headers

variable {cs rest : List Char} {key key' : Key} {arguments arguments' : List (String × String)}

theorem skipIndent_eq_nil_iff : skipIndent cs = [] ↔ Gap cs := List.dropWhile_eq_nil_iff

/-- Nothing but a gap ends a header. -/
theorem header_end_eq_ok_iff : (do
      if !(skipIndent rest).isEmpty then throw ⟨.textAfterHeader, (skipIndent rest).length⟩
      return (key, arguments) : Except Stop (Key × List (String × String)))
      = .ok (key', arguments') ↔ Gap rest ∧ key' = key ∧ arguments' = arguments := by
  rw [← skipIndent_eq_nil_iff]
  rcases skipIndent rest with _ | ⟨c, tail⟩
  · constructor
    · intro h
      cases h
      exact ⟨rfl, rfl, rfl⟩
    · rintro ⟨-, rfl, rfl⟩
      rfl
  · exact ⟨nofun, fun h => by cases h.1⟩

theorem ArgumentsText.exists_cons (h : ArgumentsText cs arguments) : ∃ tail, cs = '(' :: tail := by
  cases h with
  | none => exact ⟨_, rfl⟩
  | some => exact ⟨_, rfl⟩

/-- **What is read as a header** is the text of one. -/
theorem headerText_of_readHeader (h : readHeader cs = .ok (key, arguments)) :
    HeaderText cs key arguments := by
  unfold readHeader at h
  split at h
  · next c inner =>
    simp only at h
    split at h
    · next kind hkind =>
      obtain rfl := Kind.ofSigil?_eq_some_iff.mp hkind
      obtain ⟨⟨body, rest⟩, hbody, h⟩ := bind_eq_ok_iff.mp h
      obtain ⟨label, hlabel, h⟩ := bind_eq_ok_iff.mp h
      obtain ⟨hplain, rfl⟩ := bracketBody_eq_ok_iff.mp hbody
      have hread : Label.read body = .ok label := mapError_eq_ok_iff.mp hlabel
      obtain ⟨gap, hgap, hrest⟩ := exists_gap rest
      split at h
      · cases h
      next hoptional =>
      split at h
      · cases h
      next hintent =>
      have hnecessary : label.optional = false := Bool.eq_false_of_not_eq_true hoptional
      have hvariation : kind = .intent → label.variation = none := by
        intro hkind
        rw [not_and] at hintent
        simpa using hintent hkind
      split at h
      · next behind hopen =>
        obtain ⟨⟨read, behind'⟩, hlist, h⟩ := bind_eq_ok_iff.mp h
        obtain ⟨hend, rfl, rfl⟩ := header_end_eq_ok_iff.mp h
        obtain ⟨list, hcut, htext⟩ := readArgumentList_eq_ok_iff.mp hlist
        rw [hrest, hopen, hcut]
        exact .mk hplain hread hnecessary hvariation hgap (.inr htext) hend
      · obtain ⟨hend, rfl, rfl⟩ := header_end_eq_ok_iff.mp h
        rw [hrest]
        exact .mk hplain hread hnecessary hvariation hgap (.inl ⟨rfl, rfl⟩) hend
    · cases h
  · cases h

/-- **The text of a header** is read as one. -/
theorem HeaderText.read (h : HeaderText cs key arguments) :
    readHeader cs = .ok (key, arguments) := by
  cases h with
  | @mk kind body gap list gap' label arguments hplain hlabel hoptional hintent hgap hlist hgap' =>
    have hkind : Kind.ofSigil? kind.sigil = some kind := Kind.ofSigil?_eq_some_iff.mpr rfl
    have hbody (opened : Nat) : bracketBody opened (body ++ ']' :: (gap ++ (list ++ gap')))
        = .ok (body, gap ++ (list ++ gap')) := bracketBody_eq_ok_iff.mpr ⟨hplain, rfl⟩
    have hvariation : ¬(kind = .intent ∧ label.variation.isSome = true) := by
      rintro ⟨hkind, hsome⟩
      rw [hintent hkind] at hsome
      cases hsome
    unfold readHeader
    simp only [hkind]
    refine bind_eq_ok_iff.mpr ⟨_, hbody _, ?_⟩
    refine bind_eq_ok_iff.mpr ⟨label, mapError_eq_ok_iff.mpr hlabel, ?_⟩
    simp only [hoptional, if_neg hvariation, Bool.false_eq_true, if_false]
    rcases hlist with ⟨rfl, rfl⟩ | hlist
    · have hskip : skipIndent (gap ++ ([] ++ gap')) = [] :=
        skipIndent_eq_nil_iff.mpr (hgap.append hgap')
      rw [hskip]
      exact header_end_eq_ok_iff.mpr ⟨List.forall_mem_nil _, rfl, rfl⟩
    · obtain ⟨tail, rfl⟩ := hlist.exists_cons
      rw [List.cons_append, hgap.skip_cons (by decide)]
      exact bind_eq_ok_iff.mpr ⟨_, readArgumentList_eq_ok_iff.mpr ⟨_, rfl, hlist⟩,
        header_end_eq_ok_iff.mpr ⟨hgap', rfl, rfl⟩⟩

/-- The names in a header are different. -/
theorem HeaderText.nodup (h : HeaderText cs key arguments) : (arguments.map Prod.fst).Nodup := by
  cases h with
  | mk _ _ _ _ _ hlist _ =>
    rcases hlist with ⟨-, rfl⟩ | hlist
    · exact List.nodup_nil
    · cases hlist with
      | none => exact List.nodup_nil
      | some _ _ _ _ hnodup => exact hnodup

end Headers

/-- **Headers are read whole.**  A text is accepted as a header just if it has the form of one, and
it gives the key and the arguments that stand there; under a name the value is found that stands
with it. -/
theorem headers_are_read_whole (cs : List Char) (key : Key) (arguments : List (String × String)) :
    (readHeader cs = .ok (key, arguments) ↔ HeaderText cs key arguments) ∧
    (HeaderText cs key arguments → ∀ name value,
      arguments.lookup name = some value ↔ (name, value) ∈ arguments) := by
  refine ⟨⟨headerText_of_readHeader, HeaderText.read⟩, fun h name value => ⟨fun hvalue => ?_, ?_⟩⟩
  · obtain ⟨before, behind, hsplit, -⟩ := List.lookup_eq_some_iff.mp hvalue
    rw [hsplit]
    exact List.mem_append_right before List.mem_cons_self
  · exact lookup_eq_some_of_mem h.nodup

/-- The header `%[book] ('training':20, )`. -/
def bookingsHeader : List Char := "%[book] ('training':20, )".toList

/-- The header has one argument, whose value is a bare word, and a last comma. -/
theorem header_of_bookings :
    HeaderText bookingsHeader ⟨.intent, "book", none⟩ [("training", "20")] ∧
    readHeader bookingsHeader = .ok (⟨.intent, "book", none⟩, [("training", "20")]) ∧
    [("training", "20")].lookup "training" = some "20" := by
  have hread : readHeader bookingsHeader
      = .ok (⟨.intent, "book", none⟩, [("training", "20")]) := by
    decide +kernel
  obtain ⟨htext, hlookup⟩ :=
    headers_are_read_whole bookingsHeader ⟨.intent, "book", none⟩ [("training", "20")]
  have hheader := htext.mp hread
  exact ⟨hheader, hread, (hlookup hheader "training" "20").mpr List.mem_cons_self⟩

end IntentGrammar
