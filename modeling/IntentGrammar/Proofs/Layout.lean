import IntentGrammar.Proofs.Labels
import IntentGrammar.Proofs.Renumbering

/-!
# Layout

Two things in a text mean nothing, whether the text can be read or not: white space at the end of a
line, and a line that says nothing (`Silent`), which is one that is blank or a comment.  The first
is dropped with every line, so that the lines are the same.  The second leaves what has been read so
far as it is, and only the numbers of the lines behind it are raised (**`layout_keeps_meaning`**).
-/

namespace IntentGrammar

open Text

/-! ### White space at the end -/

section Trimming

variable {blanks : List Char}

theorem trimEnd_append_blanks (xs : List Char) (h : ∀ c ∈ blanks, isBlank c = true) :
    trimEnd (xs ++ blanks) = trimEnd xs := by
  rw [trimEnd, trimEnd, List.reverse_append, List.dropWhile_append_of_pos]
  exact fun c hc => h c (List.mem_reverse.mp hc)

theorem trimEnd_of_blanks (h : ∀ c ∈ blanks, isBlank c = true) : trimEnd blanks = [] :=
  trimEnd_append_blanks [] h

/-- Only what comes behind a character that is not blank is trimmed. -/
theorem trimEnd_append_cons {c : Char} (hc : isBlank c = false) (xs ys : List Char) :
    trimEnd (xs ++ c :: ys) = xs ++ c :: trimEnd ys := by
  have hreverse : (xs ++ c :: ys).reverse = ys.reverse ++ (c :: xs.reverse) := by simp
  rw [trimEnd, trimEnd, hreverse, List.dropWhile_append]
  split
  · next hnil =>
    rw [List.isEmpty_iff.mp hnil, List.dropWhile_cons_of_neg (by simp [hc])]
    simp
  · simp

end Trimming

/-- **White space at the end of a line** leaves the lines as they are. -/
theorem linesOf_append_blanks {before blanks behind : List Char}
    (hblanks : ∀ c ∈ blanks, isBlank c = true ∧ c ≠ '\n') (hbehind : ∀ c ∈ behind.head?, c = '\n') :
    linesOf (before ++ blanks ++ behind) = linesOf (before ++ behind) := by
  have hfree : '\n' ∉ blanks := fun hmem => (hblanks _ hmem).2 rfl
  -- the blanks belong to the last line in front, and are trimmed with it
  have hlast : linesOf (before ++ blanks) = linesOf before := by
    obtain ⟨front, last, hcut, happend⟩ := exists_cut_append '\n' before
    rw [linesOf, linesOf, splitLines, splitLines, happend blanks hfree, hcut,
      List.zipIdx_append, List.zipIdx_append, List.map_append, List.map_append]
    simp only [List.zipIdx_singleton, List.map_singleton,
      trimEnd_append_blanks last fun c hc => (hblanks c hc).1]
  rcases behind with _ | ⟨c, behind⟩
  · rw [List.append_nil, List.append_nil, hlast]
  · obtain rfl : c = '\n' := hbehind c rfl
    rw [linesOf_append_cons, linesOf_append_cons, hlast, List.count_append,
      List.count_eq_zero.mpr hfree, Nat.add_zero]

/-! ### Lines that say nothing -/

/-- A line that says nothing: it is blank, or it starts with `#`, or with `//` behind any number of
spaces and tabs. -/
inductive Silent : List Char → Prop
  | blank {cs : List Char} (h : ∀ c ∈ cs, isBlank c = true) : Silent cs
  | hash (cs : List Char) : Silent ('#' :: cs)
  | slashes (indent cs : List Char) (h : ∀ c ∈ indent, isIndent c = true) :
      Silent (indent ++ '/' :: '/' :: cs)

theorem Silent.form_eq {cs : List Char} (h : Silent cs) (number : Nat) :
    Line.form ⟨number, trimEnd cs⟩ = .skipped := by
  cases h with
  | blank h => rw [trimEnd_of_blanks h]; rfl
  | hash cs =>
    have htrim : trimEnd ('#' :: cs) = '#' :: trimEnd cs := trimEnd_append_cons rfl [] cs
    rw [htrim]
    rfl
  | slashes indent cs h =>
    have htrim : trimEnd (indent ++ '/' :: '/' :: cs) = indent ++ '/' :: '/' :: trimEnd cs := by
      have hslash : trimEnd ('/' :: cs) = '/' :: trimEnd cs := trimEnd_append_cons rfl [] cs
      rw [trimEnd_append_cons rfl, hslash]
    have hskip : skipIndent (indent ++ '/' :: '/' :: trimEnd cs) = '/' :: '/' :: trimEnd cs := by
      rw [skipIndent, List.dropWhile_append_of_pos h]
      rfl
    rw [htrim]
    -- without indentation the line would be a header, with one it would be a sentence
    rcases indent with _ | ⟨c, indent⟩
    · rfl
    · have hc : isIndent c = true := h c List.mem_cons_self
      rw [List.cons_append] at hskip ⊢
      simp only [Line.form, hc, hskip, if_true]
      rfl

/-! ### The theorem -/

/-- The number of a line when another one has been put in as the line `new`. -/
def makeRoom (new number : Nat) : Nat := if number < new then number else number + 1

theorem makeRoom_of_lt {new number : Nat} (h : number < new) : makeRoom new number = number :=
  if_pos h

theorem makeRoom_of_le {new number : Nat} (h : new ≤ number) : makeRoom new number = number + 1 :=
  if_neg (Nat.not_lt.mpr h)

section Insertion

variable {before line : List Char}

/-- A line put in between others. -/
theorem readDefinitions_insert (hbefore : EndsLine before) (hline : '\n' ∉ line)
    (hsilent : Silent line) (behind : List Char) :
    readDefinitions (before ++ line ++ '\n' :: behind)
      = renumbered (makeRoom (before.count '\n' + 1)) (readDefinitions (before ++ behind)) := by
  obtain ⟨front, hfront, hlines⟩ := exists_linesOf_append hbefore
  have hcount : line.count '\n' = 0 := List.count_eq_zero.mpr hline
  -- the lines in front keep their numbers, and those behind are moved on by one
  have hkept : front.map (·.renumber (makeRoom (before.count '\n' + 1))) = front := by
    refine (List.map_congr_left fun l hl => ?_).trans (List.map_id front)
    rw [Line.renumber, makeRoom_of_lt (Nat.lt_succ_of_le (hfront l hl))]
    rfl
  have hmoved : ((linesOf behind).map (·.renumber (· + before.count '\n'))).map
        (·.renumber (makeRoom (before.count '\n' + 1)))
      = ((linesOf behind).map (·.renumber (· + (0 + 1)))).map
        (·.renumber (· + before.count '\n')) := by
    rw [List.map_map, List.map_map]
    refine List.map_congr_left fun l hl => ?_
    have hnumber := number_pos_of_mem_linesOf hl
    simp only [Function.comp, Line.renumber, Line.mk.injEq, and_true]
    rw [makeRoom_of_le (by omega)]
    omega
  rw [readDefinitions_eq, readDefinitions_eq, List.append_assoc, hlines, hlines,
    linesOf_append_cons, linesOf_of_notMem hline, hcount, List.singleton_append, List.map_cons,
    ← readLines_renumber, List.map_append, hkept, hmoved]
  exact readLines_skip (hsilent.form_eq _)

/-- A line put behind all others. -/
theorem readDefinitions_append (hline : '\n' ∉ line) (hsilent : Silent line)
    (source : List Char) :
    readDefinitions (source ++ '\n' :: line) = readDefinitions source := by
  rw [readDefinitions_eq, readDefinitions_eq, linesOf_append_cons, linesOf_of_notMem hline,
    List.map_singleton]
  exact (readLines_skip (hsilent.form_eq _)).trans (by rw [List.append_nil])

end Insertion

theorem definitions_read (source : String) :
    Grammar.definitions <$> Grammar.read source = readDefinitions source.toList := by
  rw [Grammar.read]
  rcases readDefinitions source.toList with e | ds
  · rfl
  · rfl

/-- **Layout does not change meaning.**  For every text, whether it can be read or not: white space
at the end of a line leaves the definitions, or the fault, as they are; and so does a line that says
nothing, put in where a line starts or behind the last one, but for the numbers of the lines that
come after it, which are raised by one. -/
theorem layout_keeps_meaning (before behind : String) :
    (∀ blanks : String, (∀ c ∈ blanks.toList, isBlank c = true ∧ c ≠ '\n') →
      (∀ c ∈ behind.toList.head?, c = '\n') →
      Grammar.definitions <$> Grammar.read (before ++ blanks ++ behind)
        = Grammar.definitions <$> Grammar.read (before ++ behind)) ∧
    ∀ line : String, '\n' ∉ line.toList → Silent line.toList →
      (EndsLine before.toList →
        Grammar.definitions <$> Grammar.read (before ++ line ++ "\n" ++ behind)
          = renumbered (makeRoom (before.toList.count '\n' + 1))
              (Grammar.definitions <$> Grammar.read (before ++ behind))) ∧
      Grammar.definitions <$> Grammar.read (before ++ "\n" ++ line)
        = Grammar.definitions <$> Grammar.read before := by
  have hfeed : "\n".toList = ['\n'] := rfl
  refine ⟨fun blanks hblanks hbehind => ?_, fun line hline hsilent => ⟨fun hbefore => ?_, ?_⟩⟩
  · rw [definitions_read, definitions_read, String.toList_append, String.toList_append,
      String.toList_append, readDefinitions_eq, linesOf_append_blanks hblanks hbehind]
    rfl
  · have hinsert := readDefinitions_insert hbefore hline hsilent behind.toList
    simpa only [definitions_read, String.toList_append, hfeed, List.append_assoc,
      List.singleton_append] using hinsert
  · have happend := readDefinitions_append hline hsilent before.toList
    simpa only [definitions_read, String.toList_append, hfeed, List.append_assoc,
      List.singleton_append] using happend

/-- A line feed of another kind is white space at the end of the line, and a stray bracket is found
one line further down if there is a comment in front of it. -/
theorem layout_of_greeting :
    Grammar.definitions <$> Grammar.read ("%[greet]" ++ "\r" ++ "\n hello\n")
        = Grammar.definitions <$> Grammar.read ("%[greet]" ++ "\n hello\n") ∧
    Grammar.definitions <$> Grammar.read ("%[greet]\n" ++ " hello]\n")
        = .error ⟨2, 7, .unmatchedClose⟩ ∧
    Grammar.definitions <$> Grammar.read ("%[greet]\n" ++ "\t// politely" ++ "\n" ++ " hello]\n")
        = .error ⟨3, 7, .unmatchedClose⟩ := by
  have hreturn : ∀ c ∈ "\r".toList, isBlank c = true ∧ c ≠ '\n' :=
    List.forall_mem_singleton.mpr ⟨rfl, by decide⟩
  have hfeed : ∀ c ∈ "\n hello\n".toList.head?, c = '\n' := by
    rintro c ⟨⟩
    rfl
  have hstart : EndsLine "%[greet]\n".toList := by
    rintro c ⟨⟩
    rfl
  have hsilent : Silent "\t// politely".toList :=
    .slashes ['\t'] " politely".toList (List.forall_mem_singleton.mpr rfl)
  have hstray : Grammar.definitions <$> Grammar.read ("%[greet]\n" ++ " hello]\n")
        = .error ⟨2, 7, .unmatchedClose⟩ := by
    rw [definitions_read]
    cbv
  refine ⟨?_, hstray, ?_⟩
  · exact (layout_keeps_meaning "%[greet]" "\n hello\n").1 "\r" hreturn hfeed
  · have hinsert := ((layout_keeps_meaning "%[greet]\n" " hello]\n").2 "\t// politely" (by decide)
      hsilent).1 hstart
    rw [hinsert, hstray]
    rfl

end IntentGrammar
