import IntentGrammar.Grammar.Source
import IntentGrammar.Proofs.Traversal

/-!
# Line numbers

Reading looks at the number of a line only to say where something stands.  So to give the lines
other numbers is to give them in the outcome, be it definitions or a fault, and to change nothing
else (**`readLines_renumber`**).  The lines of a text that follows another one have their numbers
raised by the line feeds in front of them (`exists_linesOf_append`).
-/

namespace IntentGrammar

open Text

/-! ### Other numbers -/

section Numbers

variable (f : Nat → Nat)

/-- The sentence on a line with another number. -/
def Alternative.renumber (a : Alternative) : Alternative := { a with line := f a.line }

/-- The definition on lines with other numbers. -/
def Definition.renumber (d : Definition) : Definition :=
  { d with alternatives := d.alternatives.map (·.renumber f), line := f d.line }

/-- The fault on a line with another number. -/
def SourceError.renumber (e : SourceError) : SourceError := { e with line := f e.line }

/-- The line with another number. -/
def Line.renumber (l : Line) : Line := { l with number := f l.number }

/-- What has been read of lines with other numbers. -/
def Reading.renumber (r : Reading) : Reading :=
  ⟨r.complete.map (·.renumber f), r.current.map (·.renumber f)⟩

/-- A fault on a line with another number, or a result made from one. -/
def renumberTo {α β : Type} (g : α → β) (m : Except SourceError α) : Except SourceError β :=
  (m.mapError (·.renumber f)).map g

/-- The definitions that were read, or the fault, on lines with other numbers. -/
def renumbered (m : Except SourceError (List Definition)) : Except SourceError (List Definition) :=
  renumberTo f (List.map (·.renumber f)) m

end Numbers

/-! ### Reading lines with other numbers -/

/-- The definitions on lines in order. -/
def readLines (ls : List Line) : Except SourceError (List Definition) := do
  let reading ← ls.foldlM Reading.step {}
  reading.close

theorem readDefinitions_eq (source : List Char) :
    readDefinitions source = readLines (linesOf source) := rfl

theorem Reading.step_of_skipped {r : Reading} {l : Line} (h : l.form = .skipped) :
    r.step l = .ok r := by
  rw [step, h]

/-- A line that is skipped might as well not be there. -/
theorem readLines_skip {front back : List Line} {l : Line} (h : l.form = .skipped) :
    readLines (front ++ l :: back) = readLines (front ++ back) := by
  have hsteps : (front ++ l :: back).foldlM Reading.step {}
      = (front ++ back).foldlM Reading.step {} := by
    rw [List.foldlM_append, List.foldlM_append]
    refine congrArg _ (funext fun r => ?_)
    rw [List.foldlM_cons, Reading.step_of_skipped h]
    rfl
  rw [readLines, readLines, hsteps]

section Renumber

variable (f : Nat → Nat)

theorem renumberTo_bind {α α' β β' : Type} {m : Except SourceError α}
    {k : α → Except SourceError β} {k' : α' → Except SourceError β'} {g : α → α'} {h : β → β'}
    (hk : ∀ a, k' (g a) = renumberTo f h (k a)) :
    renumberTo f g m >>= k' = renumberTo f h (m >>= k) := by
  rcases m with e | a
  · rfl
  · exact hk a

theorem keys_renumber (ds : List Definition) :
    (ds.map (·.renumber f)).map (·.key) = ds.map (·.key) := by
  rw [List.map_map]
  rfl

/-- The number of its line is not looked at when a sentence is read. -/
theorem readSentence_renumber (l : Line) (text : List Char) :
    (l.renumber f).readSentence text = renumberTo f (·.renumber f) (l.readSentence text) := by
  rw [Line.readSentence, Line.readSentence, readSentence, readSentence]
  -- weight and pieces are read from the text alone, and fail at a place in it
  rcases readWeight text with stop | ⟨weight, rest⟩
  · rfl
  · simp only [Line.renumber, bind, Except.bind]
    rcases pieces l.text.length (text.take (text.length - rest.length)).getLast? rest
      with stop | ⟨ps, left⟩
    · rfl
    · simp only
      cases (elementsOf ps).isEmpty
      · rfl
      · rfl

/-- The number of its line is not looked at when a header is read. -/
theorem readHeader_renumber (l : Line) (text : List Char) :
    (l.renumber f).readHeader text = renumberTo f (·.renumber f) (l.readHeader text) := by
  rw [Line.readHeader, Line.readHeader]
  rcases readHeader text with stop | ⟨key, arguments⟩
  · rfl
  · simp only [Except.mapError, bind, Except.bind]
    rcases argumentFault? key arguments with _ | fault
    · rfl
    · rfl

theorem close_renumber (r : Reading) :
    (r.renumber f).close = renumberTo f (List.map (·.renumber f)) r.close := by
  rcases r with ⟨complete, _ | d⟩
  · rfl
  · simp only [Reading.close, Reading.renumber, Option.map_some, Definition.renumber,
      List.isEmpty_map]
    split
    · rfl
    · simp only [renumberTo, Except.mapError, Except.map, List.map_append, List.map_singleton]

/-- What a line adds stands on it. -/
theorem step_renumber (r : Reading) (l : Line) :
    (r.renumber f).step (l.renumber f) = renumberTo f (·.renumber f) (r.step l) := by
  have hform : (l.renumber f).form = l.form := rfl
  rw [Reading.step, Reading.step, hform]
  split
  · rfl
  · next text _ =>
    rcases r with ⟨complete, _ | d⟩
    · rfl
    · simp only [Reading.renumber, Option.map_some, readSentence_renumber]
      refine renumberTo_bind f fun a => ?_
      simp only [renumberTo, Except.mapError, Except.map, pure, Except.pure, Option.map_some,
        Definition.renumber, List.map_append, List.map_singleton]
  · next text _ =>
    -- the keys in front are the same, so the new one is taken or not in both
    rw [close_renumber]
    refine renumberTo_bind f fun complete => ?_
    rw [readHeader_renumber]
    refine renumberTo_bind f fun d => ?_
    have hkey : (d.renumber f).key = d.key := rfl
    rw [keys_renumber, hkey]
    by_cases hmem : d.key ∈ complete.map (·.key)
    · simp only [if_pos hmem]
      rfl
    · simp only [if_neg hmem]
      rfl

theorem foldlM_step_renumber (ls : List Line) (r : Reading) :
    (ls.map (·.renumber f)).foldlM Reading.step (r.renumber f)
      = renumberTo f (·.renumber f) (ls.foldlM Reading.step r) := by
  induction ls generalizing r with
  | nil => rfl
  | cons l ls ih =>
    rw [List.map_cons, List.foldlM_cons, List.foldlM_cons, step_renumber]
    exact renumberTo_bind f fun r' => ih r'

/-- **Other numbers for the lines** are other numbers in the outcome, and nothing else. -/
theorem readLines_renumber (ls : List Line) :
    readLines (ls.map (·.renumber f)) = renumbered f (readLines ls) := by
  have hsteps := foldlM_step_renumber f ls {}
  rw [readLines, readLines, renumbered]
  rw [show (({} : Reading).renumber f) = {} from rfl] at hsteps
  rw [hsteps]
  exact renumberTo_bind f (close_renumber f)

end Renumber

/-! ### The lines of a text behind another -/

/-- The text is empty or ends with a line feed, so that a line starts behind it. -/
def EndsLine (cs : List Char) : Prop := ∀ c ∈ cs.getLast?, c = '\n'

/-- Lines that stand behind `k` other ones. -/
theorem map_zipIdx_eq_renumber (k : Nat) (texts : List (List Char)) :
    (texts.zipIdx k).map (fun (text, i) => (⟨i + 1, trimEnd text⟩ : Line))
      = (texts.zipIdx.map fun (text, i) => (⟨i + 1, trimEnd text⟩ : Line)).map
        (·.renumber (· + k)) := by
  rw [List.zipIdx_eq_map_add, List.map_map, List.map_map]
  refine List.map_congr_left fun ⟨text, i⟩ _ => ?_
  simp only [Function.comp, Line.renumber, Line.mk.injEq, and_true]
  omega

/-- The lines in front of a line feed, and those behind it. -/
theorem linesOf_append_cons (xs ys : List Char) :
    linesOf (xs ++ '\n' :: ys)
      = linesOf xs ++ (linesOf ys).map (·.renumber (· + (xs.count '\n' + 1))) := by
  rw [linesOf, linesOf, linesOf, splitLines, cut_append_cons, List.zipIdx_append, List.map_append,
    length_cut, Nat.zero_add, map_zipIdx_eq_renumber (xs.count '\n' + 1)]
  rfl

theorem number_le_of_mem_linesOf {cs : List Char} {l : Line} (h : l ∈ linesOf cs) :
    l.number ≤ cs.count '\n' + 1 := by
  obtain ⟨⟨text, i⟩, hmem, rfl⟩ := List.mem_map.mp h
  have hi := List.snd_lt_of_mem_zipIdx hmem
  rw [splitLines, length_cut] at hi
  exact hi

theorem number_pos_of_mem_linesOf {cs : List Char} {l : Line} (h : l ∈ linesOf cs) :
    0 < l.number := by
  obtain ⟨⟨text, i⟩, -, rfl⟩ := List.mem_map.mp h
  exact Nat.succ_pos i

theorem linesOf_of_notMem {cs : List Char} (h : '\n' ∉ cs) : linesOf cs = [⟨1, trimEnd cs⟩] := by
  rw [linesOf, splitLines, cut_of_notMem h]
  rfl

/-- **Behind a text that ends a line** the lines are those of what follows, with their numbers
raised by its line feeds. -/
theorem exists_linesOf_append {before : List Char} (h : EndsLine before) :
    ∃ front : List Line, (∀ l ∈ front, l.number ≤ before.count '\n') ∧
      ∀ behind, linesOf (before ++ behind)
        = front ++ (linesOf behind).map (·.renumber (· + before.count '\n')) := by
  rcases List.eq_nil_or_concat before with rfl | ⟨xs, c, rfl⟩
  · exact ⟨[], nofun, fun behind => (List.map_id _).symm⟩
  · obtain rfl : c = '\n' := h c (by simp)
    have hcount : (xs.concat '\n').count '\n' = xs.count '\n' + 1 := by simp
    rw [hcount]
    refine ⟨linesOf xs, fun l hl => number_le_of_mem_linesOf hl, fun behind => ?_⟩
    rw [List.concat_eq_append, List.append_assoc, List.singleton_append, linesOf_append_cons]

end IntentGrammar
