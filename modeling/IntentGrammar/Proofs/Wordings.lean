import IntentGrammar.Proofs.Attempts
import IntentGrammar.Proofs.Positions

/-!
# How a text is refused

A text that is read by trial could be refused because the last reader has given way, with no more to
say than what it had expected.  This does not happen: line by line, what is tried is read or has a
fault (**`Trial.read_eq`**).  A fault points into the text (`pointsInto_of_read`), and no fault is
worded like a mere mismatch (`Fault.definite_message`).
-/

namespace IntentGrammar

open Text

/-! ### The text of a grammar -/

/-- Why the text of a grammar is refused: there is a fault, or a mismatch that no reader has made up
for. -/
inductive Refusal where
  | mismatch (what : String) (line column : Nat)
  | fault (e : SourceError)
  deriving DecidableEq, Repr

/-- The wording of a refusal.  Of a mismatch there is no more to say than what was tried. -/
def Refusal.message : Refusal → String
  | mismatch what _ _ => s!"unexpected input ({what})"
  | fault e => e.fault.message

/-- What stands in the way on a line of the given number and width. -/
def Hindrance.onLine (number width : Nat) : Hindrance → Refusal
  | mismatch what left => .mismatch what number (columnOf width left)
  | fault stop => .fault (stop.onLine number width)

namespace Trial

/-- A line, and the line feed that ends it if there is one. -/
def sourceLine : Reader (List Char) := fun cs => do
  let (text, rest) ← run (· != '\n') cs
  let (_, rest) ← opt (char '\n') rest
  return (text, rest)

/-- Take a sentence on a line into account. -/
def sentenceLine (r : Reading) (l : Line) (text : List Char) : Except Refusal Reading :=
  match r.current with
  | none => .error (.fault ⟨l.number, columnOf l.text.length text.length, .sentenceWithoutHeader⟩)
  | some d => do
    let (alternative, _) ← (sentence l.number l.text.length text).mapError
      (Hindrance.onLine l.number l.text.length)
    return { r with current := some { d with alternatives := d.alternatives ++ [alternative] } }

/-- Take a header on a line into account. -/
def headerLine (r : Reading) (l : Line) : Except Refusal Reading := do
  let complete ← r.close.mapError .fault
  let ((key, arguments), _) ← (header l.text).mapError (Hindrance.onLine l.number l.text.length)
  match argumentFault? key arguments with
  | some fault => .error (.fault ⟨l.number, 1, fault⟩)
  | none =>
    if key ∈ complete.map (·.key) then .error (.fault ⟨l.number, 1, .repeatedDefinition key⟩)
    else
      let d : Definition := { key, arguments, alternatives := [], line := l.number }
      return { complete, current := some d }

/-- Take a line into account: a sentence if it starts with a space or a tab, else a header. -/
def step (r : Reading) (l : Line) : Except Refusal Reading :=
  if (trim l.text).isEmpty then .ok r
  else
    match someRun "Space" isIndent l.text with
    | .ok (_, text) => if startsComment text then .ok r else sentenceLine r l text
    | .error _ =>
      if startsComment l.text || l.text.head? = some '#' then .ok r else headerLine r l

theorem sourceLine_eq (cs : List Char) : sourceLine cs
    = .ok (cs.takeWhile (· != '\n'), (cs.dropWhile (· != '\n')).tail) := by
  rw [sourceLine, run]
  simp only [ok_bind]
  have hhead := List.head?_dropWhile_not (· != '\n') cs
  rcases hdrop : cs.dropWhile (· != '\n') with _ | ⟨c, behind⟩
  · rfl
  · rw [hdrop] at hhead
    obtain rfl : c = '\n' := by simpa using hhead
    rfl

/-- A line, or the line feed at its end, is some of the text. -/
theorem length_lt_of_sourceLine {cs text rest : List Char} (hsome : cs ≠ [])
    (h : sourceLine cs = .ok (text, rest)) : rest.length < cs.length := by
  rw [sourceLine_eq] at h
  cases h
  have hle := length_dropWhile_le (· != '\n') cs
  have hpos := List.length_pos_of_ne_nil hsome
  rw [List.length_tail]
  omega

/-- Take one line after the other into account, the first one with the given number. -/
def steps (number : Nat) (r : Reading) (cs : List Char) : Except Refusal Reading :=
  if hsome : cs = [] then .ok r
  else
    match h : sourceLine cs with
    | .error hindrance => .error (hindrance.onLine number cs.length)
    | .ok (text, rest) => do
      have : rest.length < cs.length := length_lt_of_sourceLine hsome h
      let r ← step r ⟨number, trimEnd text⟩
      steps (number + 1) r rest
termination_by cs.length

/-- Read the text of a grammar. -/
def read (source : String) : Except Refusal Grammar := do
  let reading ← steps 1 {} source.toList
  let definitions ← reading.close.mapError .fault
  return { definitions, source }

section Lines

variable {r : Reading} {l : Line} {cs text : List Char}

theorem sentenceLine_eq (h : l.form = .sentence text) :
    sentenceLine r l text = (r.step l).mapError .fault := by
  rw [sentenceLine, Reading.step, h]
  rcases r.current with _ | d
  · rfl
  simp only [sentence_eq, Line.readSentence]
  rcases readSentence l.number l.text.length text with stop | ⟨a, left⟩
  · rfl
  · rfl

theorem headerLine_eq (h : l.form = .header l.text) (hsome : l.text ≠ []) :
    headerLine r l = (r.step l).mapError .fault := by
  rw [headerLine, Reading.step, h, header_eq hsome]
  simp only [Line.readHeader]
  rcases r.close with e | complete
  · rfl
  rcases readHeader l.text with stop | ⟨key, arguments⟩
  · rfl
  simp only [mapError_ok, ok_bind, Except.map]
  rcases argumentFault? key arguments with _ | fault
  · by_cases hrepeated : key ∈ complete.map (·.key)
    · simp only [pure_bind, if_pos hrepeated]
      rfl
    · simp only [pure_bind, if_neg hrepeated]
      rfl
  · rfl

/-- **A line that is tried is read**, if it ends with no white space. -/
theorem step_eq (r : Reading) (hend : ∀ c ∈ l.text.getLast?, isBlank c = false) :
    step r l = (r.step l).mapError .fault := by
  obtain ⟨number, text⟩ := l
  rcases text with _ | ⟨c, tail⟩
  · rfl
  -- the last character is not white space, so the line is not blank
  have hword : ¬(trim (c :: tail)).isEmpty = true := by
    rw [List.isEmpty_iff, trim_eq_nil_iff]
    intro hblank
    have hlast := List.getLast_mem (List.cons_ne_nil c tail)
    have hsome := hend _ (List.getLast?_eq_some_getLast (List.cons_ne_nil c tail))
    rw [hblank _ hlast] at hsome
    cases hsome
  rw [step, if_neg hword]
  by_cases hindent : isIndent c = true
  · rw [someRun_of_pos "Space" hindent]
    by_cases hcomment : startsComment (skipIndent (c :: tail)) = true
    · have hform : Line.form ⟨number, c :: tail⟩ = .skipped := by
        simp only [Line.form, if_pos hindent, if_pos hcomment]
      rw [Reading.step_of_skipped hform]
      exact if_pos hcomment
    · have hform : Line.form ⟨number, c :: tail⟩ = .sentence (skipIndent (c :: tail)) := by
        simp only [Line.form, if_pos hindent, if_neg hcomment]
      rw [← sentenceLine_eq hform]
      exact if_neg hcomment
  · have hgap : (someRun "Space" isIndent (c :: tail)).outcome = .ok none :=
      outcome_someRun_of_neg hindent
    obtain ⟨what, left, hspace⟩ := eq_of_outcome_none hgap
    rw [hspace]
    by_cases hcomment : (startsComment (c :: tail) || decide (c = '#')) = true
    · have hform : Line.form ⟨number, c :: tail⟩ = .skipped := by
        simp only [Line.form, if_neg hindent, if_pos hcomment]
      rw [Reading.step_of_skipped hform]
      simp only [List.head?_cons, Option.some.injEq, if_pos hcomment]
      rfl
    · have hform : Line.form ⟨number, c :: tail⟩ = .header (c :: tail) := by
        simp only [Line.form, if_neg hindent, if_neg hcomment]
      rw [← headerLine_eq hform (List.cons_ne_nil c tail)]
      simp only [List.head?_cons, Option.some.injEq, if_neg hcomment]

theorem steps_nil (number : Nat) (r : Reading) : steps number r [] = .ok r := by
  rw [steps, dif_pos rfl]

/-- One line more. -/
theorem steps_of_sourceLine {number : Nat} {rest : List Char} (hsome : cs ≠ [])
    (h : sourceLine cs = .ok (text, rest)) : steps number r cs
      = step r ⟨number, trimEnd text⟩ >>= fun r => steps (number + 1) r rest := by
  rw [steps, dif_neg hsome]
  split
  · next hindrance heq =>
    rw [h] at heq
    cases heq
  · next heq =>
    rw [h] at heq
    cases heq
    rfl

/-- The first line of a text, and the lines of the text behind it. -/
theorem linesOf_of_sourceLine {rest : List Char} (h : sourceLine cs = .ok (text, rest)) :
    rest = [] ∧ linesOf cs = [⟨1, trimEnd text⟩] ∨
      linesOf cs = ⟨1, trimEnd text⟩ :: (linesOf rest).map (·.renumber (· + 1)) := by
  rw [sourceLine_eq] at h
  cases h
  have hcut := List.takeWhile_append_dropWhile (p := (· != '\n')) (l := cs)
  have hline : '\n' ∉ cs.takeWhile (· != '\n') := fun hmem => by
    have hne := List.mem_takeWhile_imp hmem
    simp at hne
  have hhead := List.head?_dropWhile_not (· != '\n') cs
  rcases hdrop : cs.dropWhile (· != '\n') with _ | ⟨c, behind⟩
  · rw [hdrop, List.append_nil] at hcut
    rw [hcut] at hline ⊢
    exact .inl ⟨rfl, linesOf_of_notMem hline⟩
  · rw [hdrop] at hhead hcut
    obtain rfl : c = '\n' := by simpa using hhead
    right
    conv_lhs => rw [← hcut]
    rw [linesOf_append_cons, linesOf_of_notMem hline, List.count_eq_zero.mpr hline]
    rfl

/-- **The lines that are tried are read**, behind `k` other ones. -/
theorem steps_eq (k : Nat) (r : Reading) (cs : List Char) : steps (k + 1) r cs
    = (((linesOf cs).map (·.renumber (· + k))).foldlM Reading.step r).mapError .fault := by
  induction hn : cs.length using Nat.strongRecOn generalizing k r cs with
  | ind n ih =>
    rcases Classical.em (cs = []) with rfl | hsome
    · rw [steps_nil]
      rfl
    have hline := sourceLine_eq cs
    have hstep := step_eq (l := ⟨k + 1, trimEnd (cs.takeWhile (· != '\n'))⟩) r
      fun c hc => getLast?_trimEnd hc
    have hnumber : Line.renumber (· + k) ⟨1, trimEnd (cs.takeWhile (· != '\n'))⟩
        = ⟨k + 1, trimEnd (cs.takeWhile (· != '\n'))⟩ := by
      rw [Line.renumber, Nat.add_comm]
    rw [steps_of_sourceLine hsome hline, hstep]
    -- this line is the last one, or others follow, with their numbers one higher
    rcases linesOf_of_sourceLine hline with ⟨hnil, hlines⟩ | hlines
    · rw [hlines, List.map_singleton, hnumber, List.foldlM_cons, mapError_bind, hnil]
      simp only [steps_nil]
      rfl
    · have hshort := length_lt_of_sourceLine hsome hline
      have hlater : (Line.renumber (· + k)) ∘ (Line.renumber (· + 1))
          = Line.renumber (· + (k + 1)) := by
        funext l
        rw [Function.comp, Line.renumber, Line.renumber, Line.renumber, Nat.add_assoc,
          Nat.add_comm 1]
      rw [hlines, List.map_cons, hnumber, List.foldlM_cons, mapError_bind, List.map_map, hlater]
      simp only [ih _ (hn ▸ hshort) (k + 1) _ _ rfl]

/-- **A grammar that is tried is read**: whatever reader gives way, in the end there is a grammar or
a fault. -/
theorem read_eq (source : String) : read source = (Grammar.read source).mapError .fault := by
  have hlines : (linesOf source.toList).map (Line.renumber (· + 0)) = linesOf source.toList :=
    List.map_id _
  rw [read, steps_eq 0, hlines, Grammar.read, readDefinitions, mapError_bind, mapError_bind,
    bind_assoc]
  rfl

end Lines

end Trial

/-! ### Wordings -/

/-- The texts have different characters at one place. -/
def differ : List Char → List Char → Bool
  | a :: as, b :: bs => a != b || differ as bs
  | _, _ => false

theorem differ_append {as bs : List Char} (h : differ as bs = true) (cs : List Char) :
    differ as (bs ++ cs) = true := by
  induction as generalizing bs with
  | nil => cases h
  | cons a as ih =>
    rcases bs with _ | ⟨b, bs⟩
    · cases h
    · rw [differ, Bool.or_eq_true] at h
      rw [List.cons_append, differ, Bool.or_eq_true]
      exact h.imp_right ih

theorem differ_self (as bs : List Char) : differ as (as ++ bs) = false := by
  induction as with
  | nil => rfl
  | cons a as ih => simpa [differ] using ih

/-- How a refusal starts that says nothing but that something else was expected. -/
def vagueStarts : List (List Char) :=
  ["unexpected input (".toList, "unexpected end of input".toList]

/-- The text does not start like a vague refusal. -/
def Definite (s : String) : Prop := ∀ cs ∈ vagueStarts, differ cs s.toList = true

instance (s : String) : Decidable (Definite s) :=
  inferInstanceAs (Decidable (∀ cs ∈ vagueStarts, differ cs s.toList = true))

theorem Definite.append {s : String} (h : Definite s) (t : String) : Definite (s ++ t) := by
  intro cs hcs
  rw [String.toList_append]
  exact differ_append (h cs hcs) _

theorem Definite.ne {s : String} (h : Definite s) :
    (∀ what, s ≠ "unexpected input (" ++ what ++ ")") ∧ s ≠ "unexpected end of input" := by
  constructor
  · rintro what rfl
    have hdiffer := h _ List.mem_cons_self
    rw [String.toList_append, String.toList_append, List.append_assoc, differ_self] at hdiffer
    cases hdiffer
  · rintro rfl
    have hdiffer := h _ (List.mem_cons_of_mem _ List.mem_cons_self)
    have hself := differ_self "unexpected end of input".toList []
    rw [List.append_nil, hdiffer] at hself
    cases hself

/-- The text of a key starts with a sigil. -/
theorem Key.definite_text (key : Key) : Definite key.text := by
  have hsigil (kind : Kind) : Definite (String.singleton kind.sigil) := by
    cases kind <;> decide +kernel
  rw [text]
  exact (((hsigil key.kind).append _).append _).append _

/-- **A fault has a wording of its own.** -/
theorem Fault.definite_message (fault : Fault) : Definite fault.message := by
  cases fault with
  | badCount name value =>
    refine .append (.append (.append (.append ?_ _) _) _) _
    decide +kernel
  | countOutsideIntent name key =>
    refine .append (.append (.append ?_ _) _) _
    decide +kernel
  | unknownSigil c | expectedComma found | repeatedArgument name | unknownDistribution value
  | notPercentage body | badWeight body | weightOutOfRange number | unknownSigilBefore c =>
    refine .append (.append ?_ _) _
    decide +kernel
  | repeatedDefinition key =>
    refine .append ?_ _
    decide +kernel
  | noSentences key => exact key.definite_text.append _
  | _ => decide +kernel

/-! ### The theorem -/

/-- **Faults and definitions are where they are said to be.**  A text that is read by trial gives
what it gives without: a grammar, or a fault that points into it and has a wording of its own.  What
has been read points into the text as well. -/
theorem faults_are_placed (source : String) :
    Trial.read source = (Grammar.read source).mapError .fault ∧
    (∀ refusal, Trial.read source = .error refusal →
      (∀ what, refusal.message ≠ "unexpected input (" ++ what ++ ")") ∧
      refusal.message ≠ "unexpected end of input") ∧
    (∀ e, Grammar.read source = .error e → e.PointsInto source.toList) ∧
    ∀ g, Grammar.read source = .ok g → ∀ d ∈ g.definitions, d.Placed source.toList := by
  refine ⟨Trial.read_eq source, fun refusal h => ?_, fun e => pointsInto_of_read,
    fun g => placed_of_read⟩
  rw [Trial.read_eq, mapError_eq_error_iff] at h
  obtain ⟨e, -, rfl⟩ := h
  exact e.fault.definite_message.ne

/-- A text whose second line starts with a tab, ends with a carriage return, and has a bracket that
is not closed. -/
def openText : String := "%[grüß]\r\n\thällo ~[name\r\n"

/-- A text with a reference. -/
def closedText : String := "%[grüß]\n hällo ~[name]\n~[name]\n Ann"

theorem read_openText : Grammar.read openText = .error ⟨2, 8, .unclosedBracket⟩ := by
  cbv

/-- What stands in the text with a reference. -/
def closedDefinitions : List Definition :=
  [⟨⟨.intent, "grüß", none⟩, [],
    [⟨[.literal "hällo" false, .reference ⟨.alias, "name", none, false, 8⟩], none, 2⟩], 1⟩,
   ⟨⟨.alias, "name", none⟩, [], [⟨[.literal "Ann" false], none, 4⟩], 3⟩]

theorem read_closedText : Grammar.read closedText = .ok ⟨closedDefinitions, closedText⟩ := by
  cbv

/-- The bracket that is not closed is in the eighth column, and so is the mark of the reference. -/
theorem faults_of_open_bracket :
    Trial.read openText = .error (.fault ⟨2, 8, .unclosedBracket⟩) ∧
    SourceError.PointsInto openText.toList ⟨2, 8, .unclosedBracket⟩ ∧
    ∀ d ∈ closedDefinitions, d.Placed closedText.toList := by
  obtain ⟨htrial, -, hplaced, -⟩ := faults_are_placed openText
  obtain ⟨-, -, -, hdefinitions⟩ := faults_are_placed closedText
  rw [read_openText] at htrial
  exact ⟨htrial, hplaced _ read_openText, hdefinitions _ read_closedText⟩

end IntentGrammar
