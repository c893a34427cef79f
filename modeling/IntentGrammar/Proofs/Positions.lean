import IntentGrammar.Proofs.Concatenation
import IntentGrammar.Proofs.Headers

/-!
# Where things stand

A fault is reported at a line and a column, and so is where definitions, sentences and references
stand.  These numbers point into the text: the line is there and is not blank, and the column is at
one of its characters, or just behind them (`SourceError.PointsInto`).

Columns follow from the number of characters that are left, so it is enough that every step of
reading stops with no more of them than it was given.  Lines are taken into account one after the
other: what has been read points into the text after each (`Reading.Placed.step`), and so does the
fault if a line is refused (`Reading.Placed.pointsInto`).
-/

namespace IntentGrammar

open Text

/-! ### Faults in a header -/

section Headers

variable {cs rest : List Char} {stop : Stop}

theorem left_of_readValue?_eq_error (h : readValue? cs = .error stop) :
    stop.left ≤ cs.length := by
  rcases cs with _ | ⟨c, tail⟩
  · cases h
  rw [readValue?] at h
  split at h
  · rw [readQuoted] at h
    split at h
    · cases h
      exact le_rfl
    · cases h
  · split at h
    · cases h
    · cases h

/-- An argument is refused within its text. -/
theorem left_of_readArgument?_eq_error (h : readArgument? cs = .error stop) :
    stop.left ≤ cs.length := by
  rcases bind_eq_error_iff.mp h with hname | ⟨name, hname, h⟩
  · exact left_of_readValue?_eq_error hname
  rcases name with _ | ⟨name, behind⟩
  · cases h
  obtain ⟨text, rfl, -⟩ := valueText_of_readValue? hname
  have hskip := length_skipIndent_le behind
  rw [List.length_append]
  simp only at h
  split at h
  · next tail hcolon =>
    rw [hcolon, List.length_cons] at hskip
    have htail := length_skipIndent_le tail
    rcases bind_eq_error_iff.mp h with hvalue | ⟨value, hvalue, h⟩
    · have hle := left_of_readValue?_eq_error hvalue
      omega
    · rcases value with _ | ⟨value, behind'⟩
      · cases h
        show (skipIndent tail).length ≤ _
        omega
      · cases h
  · cases h
    show (skipIndent behind).length ≤ _
    omega

/-- An argument starts where it is read. -/
theorem left_of_readArgument? {a : Argument} (h : readArgument? cs = .ok (some (a, rest))) :
    a.left = cs.length := by
  obtain ⟨name, -, h⟩ := bind_eq_ok_iff.mp h
  rcases name with _ | ⟨name, behind⟩
  · cases h
  simp only at h
  split at h
  · obtain ⟨value, -, h⟩ := bind_eq_ok_iff.mp h
    rcases value with _ | ⟨value, behind'⟩
    · cases h
    · cases h
      rfl
  · cases h

/-- Further arguments are refused within their text. -/
theorem left_of_readArguments_eq_error {fuel : Nat} (h : readArguments fuel cs = .error stop) :
    stop.left ≤ cs.length := by
  induction fuel generalizing cs with
  | zero =>
    rw [readArguments] at h
    · cases h
    · rintro _ _ ⟨⟩
  | succ fuel ih =>
    have hskip := length_skipIndent_le cs
    unfold readArguments at h
    split at h
    · next fuel' tail hfuel hcomma =>
      obtain rfl : fuel = fuel' := Nat.succ.inj hfuel
      rw [hcomma, List.length_cons] at hskip
      have htail := length_skipIndent_le tail
      rcases bind_eq_error_iff.mp h with hargument | ⟨argument, hargument, h⟩
      · have hle := left_of_readArgument?_eq_error hargument
        omega
      rcases argument with _ | ⟨argument, behind⟩
      · cases h
      have hbehind := length_of_readArgument? hargument
      rcases bind_eq_error_iff.mp h with hothers | ⟨others, hothers, h⟩
      · have hle := ih hothers
        omega
      · cases h
    · cases h

/-- Further arguments start within the text. -/
theorem left_of_mem_readArguments {fuel : Nat} {as : List Argument}
    (h : readArguments fuel cs = .ok (as, rest)) : ∀ a ∈ as, a.left ≤ cs.length := by
  induction fuel generalizing cs as with
  | zero =>
    rw [readArguments] at h
    · cases h
      exact List.forall_mem_nil _
    · rintro _ _ ⟨⟩
  | succ fuel ih =>
    have hskip := length_skipIndent_le cs
    unfold readArguments at h
    split at h
    · next fuel' tail hfuel hcomma =>
      obtain rfl : fuel = fuel' := Nat.succ.inj hfuel
      rw [hcomma, List.length_cons] at hskip
      have htail := length_skipIndent_le tail
      obtain ⟨argument, hargument, h⟩ := bind_eq_ok_iff.mp h
      rcases argument with _ | ⟨argument, behind⟩
      · cases h
        exact List.forall_mem_nil _
      obtain ⟨⟨others, behind'⟩, hothers, h⟩ := bind_eq_ok_iff.mp h
      cases h
      have hbehind := length_of_readArgument? hargument
      rw [List.forall_mem_cons, left_of_readArgument? hargument]
      refine ⟨by omega, fun a ha => ?_⟩
      have hle := ih hothers a ha
      omega
    · cases h
      exact List.forall_mem_nil _

/-- A list that is not closed is refused where it opens or where something else stands. -/
theorem left_of_close {opened : Nat} (h : (match cs with
    | [] => .error ⟨.unclosedArguments, opened⟩
    | c :: behind => if c = ')' then .ok behind else .error ⟨.expectedComma c, cs.length⟩)
      = (.error stop : Except Stop (List Char))) : stop.left = opened ∨ stop.left ≤ cs.length := by
  split at h
  · cases h
    exact .inl rfl
  · split at h
    · cases h
    · cases h
      exact .inr le_rfl

theorem left_of_closeArguments_eq_error {opened : Nat}
    (h : closeArguments opened cs = .error stop) :
    stop.left = opened ∨ stop.left ≤ cs.length := by
  have hskip := length_skipIndent_le cs
  have hleft := left_of_close h
  split at hleft
  · next tail hcomma =>
    rw [hcomma, List.length_cons] at hskip
    have htail := length_skipIndent_le tail
    omega
  · omega

theorem mem_of_firstRepeated? {seen : List String} {as : List Argument} {a : Argument}
    (h : firstRepeated? seen as = some a) : a ∈ as := by
  induction as generalizing seen with
  | nil => cases h
  | cons b as ih =>
    rw [firstRepeated?] at h
    split at h
    · cases h
      exact List.mem_cons_self
    · exact List.mem_cons_of_mem b (ih h)

/-- A list of arguments is refused within its text, or where it opens. -/
theorem left_of_readArgumentList_eq_error {opened : Nat}
    (h : readArgumentList opened cs = .error stop) :
    stop.left = opened ∨ stop.left ≤ cs.length := by
  have hskip := length_skipIndent_le cs
  rcases bind_eq_error_iff.mp h with hfirst | ⟨first, hfirst, h⟩
  · have hle := left_of_readArgument?_eq_error hfirst
    omega
  have hclosed (rest : List Char) (hrest : rest.length ≤ cs.length)
      (h : closeArguments opened rest = .error stop) :
      stop.left = opened ∨ stop.left ≤ cs.length := by
    have hleft := left_of_closeArguments_eq_error h
    omega
  rcases first with _ | ⟨first, behind⟩
  · -- an empty list has no more to it than its end
    rcases bind_eq_error_iff.mp h with h | ⟨⟨as, rest⟩, hread, h⟩
    · cases h
    cases hread
    rcases bind_eq_error_iff.mp h with hclose | ⟨closed, hclose, h⟩
    · exact hclosed _ hskip hclose
    · cases h
  have hbehind := length_of_readArgument? hfirst
  rcases bind_eq_error_iff.mp h with hothers | ⟨⟨others, rest⟩, hothers, h⟩
  · have hle := left_of_readArguments_eq_error hothers
    omega
  have hstarts := left_of_mem_readArguments hothers
  obtain ⟨further, hcut, -⟩ := furtherText_of_readArguments hothers
  rw [hcut, List.length_append] at hbehind
  rcases bind_eq_error_iff.mp h with h | ⟨⟨as, rest'⟩, hread, h⟩
  · cases h
  cases hread
  rcases bind_eq_error_iff.mp h with hclose | ⟨closed, hclose, h⟩
  · exact hclosed rest (by omega) hclose
  -- the list is closed, so what is left is a name that is repeated
  split at h
  · next repeated hrepeated =>
    cases h
    rw [hcut, List.length_append] at hstarts
    right
    show repeated.left ≤ _
    rcases List.mem_cons.mp (mem_of_firstRepeated? hrepeated) with rfl | hmem
    · rw [left_of_readArgument? hfirst]
      exact hskip
    · have hle := hstarts repeated hmem
      omega
  · cases h

/-- **A header is refused within its text.** -/
theorem left_of_readHeader_eq_error (h : readHeader cs = .error stop) : stop.left ≤ cs.length := by
  have hend (rest : List Char) (hrest : rest.length ≤ cs.length) (key : Key)
      (arguments : List (String × String)) (h : (do
          if !(skipIndent rest).isEmpty then throw ⟨.textAfterHeader, (skipIndent rest).length⟩
          return (key, arguments) : Except Stop (Key × List (String × String)))
        = .error stop) : stop.left ≤ cs.length := by
    split at h
    · cases h
      exact (length_skipIndent_le rest).trans hrest
    · cases h
  unfold readHeader at h
  split at h
  · next c inner =>
    rw [List.length_cons, List.length_cons] at hend ⊢
    simp only at h
    split at h
    · rcases bind_eq_error_iff.mp h with hbody | ⟨⟨body, rest⟩, hbody, h⟩
      · have hleft := left_of_bracketBody_eq_error hbody
        omega
      have hrest := length_lt_of_bracketBody hbody
      have hskip := length_skipIndent_le rest
      rcases bind_eq_error_iff.mp h with hlabel | ⟨label, hlabel, h⟩
      · rcases hread : Label.read body with fault | label
        · rw [hread] at hlabel
          cases hlabel
          exact Nat.le_succ _
        · rw [hread] at hlabel
          cases hlabel
      split at h
      · cases h
        exact Nat.le_succ _
      split at h
      · cases h
        exact Nat.le_succ _
      -- the label fits: with arguments or without, the header goes on to its end
      split at h
      · next behind hopen =>
        rw [hopen, List.length_cons] at hskip
        rcases bind_eq_error_iff.mp h with hlist | ⟨⟨arguments, rest'⟩, hlist, h⟩
        · have hleft := left_of_readArgumentList_eq_error hlist
          omega
        · obtain ⟨text, hcut, htext⟩ := readArgumentList_eq_ok_iff.mp hlist
          have hlength := congrArg List.length hcut
          rw [List.length_cons, List.length_append] at hlength
          exact hend rest' (by omega) _ _ h
      · exact hend (skipIndent rest) (by omega) _ _ h
    · cases h
      exact le_rfl
  · cases h
    exact le_rfl

end Headers

/-! ### References in a sentence -/

section References

variable {column width number : Nat} {cs text : List Char} {es : List Element} {r : Reference}

theorem reference_notMem_stretch (text : List Char) : .reference r ∉ stretch text := by
  rw [stretch]
  split
  · exact List.not_mem_nil
  · intro h
    cases List.mem_singleton.mp h

/-- A group that is a reference has its mark in its column. -/
theorem Mark.Means.sigil {mark : Mark} {body : List Char}
    (h : mark.Means column body (.reference r)) :
    r.column = column ∧ r.kind.sigil = mark.sigil := by
  cases mark with
  | «alias» | slot =>
    obtain ⟨label, -, hr⟩ := h
    cases hr
    exact ⟨rfl, rfl⟩
  | optional => cases h.2

/-- **The mark of a reference** stands in its column. -/
theorem Comprises.sigil (h : Comprises column cs es) (hr : .reference r ∈ es) :
    column ≤ r.column ∧ cs[r.column - column]? = some r.kind.sigil := by
  induction h with
  | last => exact absurd hr (reference_notMem_stretch _)
  | @group column text body rest mark e es _ _ hmeans _ ih =>
    rcases List.mem_append.mp hr with hr | hr
    · exact absurd hr (reference_notMem_stretch _)
    -- the reference is the group, or it stands behind it
    rcases List.mem_cons.mp hr with rfl | hr
    · obtain ⟨hcolumn, hsigil⟩ := hmeans.sigil
      refine ⟨by omega, ?_⟩
      rw [hcolumn, Nat.add_sub_cancel_left, hsigil, List.getElem?_append_right le_rfl, Nat.sub_self]
      rfl
    · obtain ⟨hle, hget⟩ := ih hr
      refine ⟨by omega, ?_⟩
      rw [← List.append_assoc, List.getElem?_append_right (by omega), Nat.sub_sub]
      exact hget

/-- A sentence at the end of a line has the marks of its references in their columns. -/
theorem sigil_of_readSentence {whole left : List Char} {a : Alternative} (htext : text <:+ whole)
    (h : readSentence number whole.length text = .ok (a, left)) (hr : .reference r ∈ a.elements) :
    1 ≤ r.column ∧ whole[r.column - 1]? = some r.kind.sigil := by
  obtain ⟨-, -, -, front, rest, ps, rfl, -, hspells, hmake⟩ := readSentence_eq_ok_iff.mp h
  obtain ⟨blanks, rfl⟩ := htext
  simp only [List.length_append] at hspells
  have hwidth : rest.length ≤ blanks.length + (front.length + rest.length) := by omega
  obtain ⟨hle, hget⟩ := ((comprises_iff hwidth).mpr ⟨ps, hspells, hmake⟩).sigil hr
  have hcolumn : columnOf (blanks.length + (front.length + rest.length)) rest.length
      = (blanks ++ front).length + 1 := by
    rw [columnOf, List.length_append]
    omega
  rw [hcolumn] at hle hget
  refine ⟨by omega, ?_⟩
  rw [← List.append_assoc, List.getElem?_append_right (by omega), Nat.sub_sub, Nat.add_comm 1]
  exact hget

end References

/-! ### Places in a text -/

/-- The text is what a line says, without the white space that the line ends with.  The line is
there, and it is not blank. -/
structure OnLine (source : List Char) (number : Nat) (text : List Char) : Prop where
  pos : 1 ≤ number
  le : number ≤ 1 + source.count '\n'
  line : (splitLines source)[number - 1]?.map trimEnd = some text
  word : ∃ c ∈ text, isBlank c = false

/-- A fault points at a character of its line, or just behind the last one. -/
def SourceError.PointsInto (source : List Char) (e : SourceError) : Prop :=
  ∃ text, OnLine source e.line text ∧ 1 ≤ e.column ∧ e.column ≤ text.length + 1

/-- The line of a sentence is there, and its references are in the columns of their marks. -/
def Alternative.Placed (source : List Char) (a : Alternative) : Prop :=
  ∃ text, OnLine source a.line text ∧ ∀ r, .reference r ∈ a.elements →
    1 ≤ r.column ∧ r.column ≤ text.length ∧ text[r.column - 1]? = some r.kind.sigil

/-- The line of a definition is there, and so are those of its sentences. -/
def Definition.Placed (source : List Char) (d : Definition) : Prop :=
  (∃ text, OnLine source d.line text) ∧ ∀ a ∈ d.alternatives, a.Placed source

section Lines

variable {source text : List Char} {l : Line} {e : SourceError}

/-- Lines with anything but blanks. -/
theorem onLine_of_mem (h : l ∈ linesOf source) (hsome : l.text ≠ []) :
    OnLine source l.number l.text := by
  refine ⟨number_pos_of_mem_linesOf h, ?_, ?_, ?_⟩
  · have hle := number_le_of_mem_linesOf h
    omega
  · obtain ⟨⟨text, i⟩, hmem, rfl⟩ := List.mem_map.mp h
    have hget := List.mem_zipIdx_iff_getElem?.mp hmem
    rw [Nat.add_sub_cancel, hget]
    rfl
  · obtain ⟨⟨text, i⟩, -, rfl⟩ := List.mem_map.mp h
    have hlast := List.getLast?_eq_some_getLast hsome
    exact ⟨_, List.getLast_mem hsome, getLast?_trimEnd hlast⟩

/-- A line with nothing on it is skipped. -/
theorem onLine_of_form (h : l ∈ linesOf source) (hform : l.form ≠ .skipped) :
    OnLine source l.number l.text := by
  apply onLine_of_mem h
  intro hnil
  apply hform
  rw [Line.form, hnil]

theorem onLine_of_sentence (h : l ∈ linesOf source) (hform : l.form = .sentence text) :
    OnLine source l.number l.text := by
  apply onLine_of_form h
  rw [hform]
  exact LineForm.noConfusion

theorem onLine_of_header (h : l ∈ linesOf source) (hform : l.form = .header text) :
    OnLine source l.number l.text := by
  apply onLine_of_form h
  rw [hform]
  exact LineForm.noConfusion

theorem Line.suffix_of_sentence (h : l.form = .sentence text) : text <:+ l.text := by
  rw [form_eq_sentence h]
  exact List.dropWhile_suffix isIndent

/-- A fault with no more characters left than its line has. -/
theorem OnLine.pointsInto {number left : Nat} (h : OnLine source number text)
    (hleft : left ≤ text.length) (fault : Fault) :
    SourceError.PointsInto source ⟨number, columnOf text.length left, fault⟩ := by
  refine ⟨text, h, ?_, ?_⟩
  · show 1 ≤ columnOf text.length left
    rw [columnOf]
    omega
  · show columnOf text.length left ≤ text.length + 1
    rw [columnOf]
    omega

/-- A fault at the start of a line. -/
theorem OnLine.pointsInto_start {number : Nat} (h : OnLine source number text) (fault : Fault) :
    SourceError.PointsInto source ⟨number, 1, fault⟩ :=
  ⟨text, h, le_rfl, Nat.succ_le_succ (Nat.zero_le _)⟩

theorem isBlank_of_isIndent {c : Char} (h : isIndent c = true) : isBlank c = true := by
  rw [isIndent, Bool.or_eq_true, decide_eq_true_eq, decide_eq_true_eq] at h
  rcases h with rfl | rfl
  · decide
  · decide

/-- Something stands behind the spaces and tabs that a line starts with. -/
theorem Line.sentence_ne_nil (hl : l ∈ linesOf source) (h : l.form = .sentence text) :
    text ≠ [] := by
  obtain ⟨-, -, -, c, hc, hword⟩ := onLine_of_sentence hl h
  rw [form_eq_sentence h]
  intro hnil
  rw [isBlank_of_isIndent (List.dropWhile_eq_nil_iff.mp hnil c hc)] at hword
  cases hword

/-- **A sentence that is refused** is so within its line. -/
theorem pointsInto_of_readSentence (hl : l ∈ linesOf source) (hform : l.form = .sentence text)
    (h : l.readSentence text = .error e) : e.PointsInto source := by
  have hline := onLine_of_sentence hl hform
  have hlength := (Line.suffix_of_sentence hform).length_le
  rcases bind_eq_error_iff.mp h with h | ⟨a, -, h⟩
  · obtain ⟨stop, hstop, rfl⟩ := mapError_eq_error_iff.mp h
    obtain ⟨-, hle⟩ := left_of_readSentence_eq_error (Line.sentence_ne_nil hl hform) hstop
    exact hline.pointsInto (hle.trans hlength) stop.fault
  · cases h

/-- **A header that is refused** is so within its line. -/
theorem pointsInto_of_readHeader (hl : l ∈ linesOf source) (hform : l.form = .header text)
    (h : l.readHeader text = .error e) : e.PointsInto source := by
  have hline := onLine_of_header hl hform
  rcases bind_eq_error_iff.mp h with h | ⟨⟨key, arguments⟩, -, h⟩
  · obtain ⟨stop, hstop, rfl⟩ := mapError_eq_error_iff.mp h
    have hle := left_of_readHeader_eq_error hstop
    rw [Line.form_eq_header hform] at hle
    exact hline.pointsInto hle stop.fault
  · simp only at h
    split at h
    · next fault _ =>
      cases h
      exact hline.pointsInto_start fault
    · cases h

/-- A sentence that is read is placed on its line. -/
theorem placed_of_readSentence {a : Alternative} (hl : l ∈ linesOf source)
    (hform : l.form = .sentence text) (h : l.readSentence text = .ok a) : a.Placed source := by
  obtain ⟨⟨a', left⟩, hread, hrest⟩ := bind_eq_ok_iff.mp h
  cases hrest
  have hread := mapError_eq_ok_iff.mp hread
  obtain ⟨-, hnumber, -⟩ := readSentence_eq_ok_iff.mp hread
  refine ⟨l.text, hnumber ▸ onLine_of_sentence hl hform, fun r hr => ?_⟩
  obtain ⟨hpos, hsigil⟩ := sigil_of_readSentence (Line.suffix_of_sentence hform) hread hr
  obtain ⟨hlt, -⟩ := List.getElem?_eq_some_iff.mp hsigil
  exact ⟨hpos, by omega, hsigil⟩

end Lines

/-! ### One line after the other -/

namespace Reading

variable {source : List Char} {r r' : Reading} {l : Line} {e : SourceError}

/-- What has been read so far is placed in the text. -/
def Placed (source : List Char) (r : Reading) : Prop := ∀ d ∈ r.begun, d.Placed source

theorem Placed.step (h : r.Placed source) (hl : l ∈ linesOf source) (hstep : r.step l = .ok r') :
    r'.Placed source := by
  rcases step_cases hstep with
    ⟨-, rfl⟩ | ⟨text, d, a, hform, hcurrent, ha, rfl⟩ |
    ⟨text, complete, d, hform, hclose, hd, -, rfl⟩
  · exact h
  · have hbegun : r.begun = r.complete ++ [d] := by rw [begun, hcurrent, Option.toList_some]
    intro d' hd'
    rw [begun, Option.toList_some] at hd'
    rcases List.mem_append.mp hd' with hd' | hd'
    · exact h d' (hbegun ▸ List.mem_append_left _ hd')
    · obtain rfl := List.mem_singleton.mp hd'
      obtain ⟨hline, hsentences⟩ := h d (hbegun ▸ List.mem_append_right _ List.mem_cons_self)
      refine ⟨hline, fun a' ha' => ?_⟩
      rcases List.mem_append.mp ha' with ha' | ha'
      · exact hsentences a' ha'
      · exact List.mem_singleton.mp ha' ▸ placed_of_readSentence hl hform ha
  · obtain ⟨rfl, -⟩ := close_eq_ok_iff.mp hclose
    intro d' hd'
    rw [begun, Option.toList_some] at hd'
    rcases List.mem_append.mp hd' with hd' | hd'
    · exact h d' hd'
    · obtain rfl := List.mem_singleton.mp hd'
      obtain ⟨-, hnumber, hnothing⟩ := Line.sound_of_readHeader
        (Line.form_eq_header hform ▸ line_of_mem_linesOf hl) hd
      have hline := onLine_of_header hl hform
      refine ⟨⟨l.text, hnumber ▸ hline⟩, ?_⟩
      rw [hnothing]
      exact List.forall_mem_nil _

/-- A definition without sentences is refused where it starts. -/
theorem Placed.pointsInto_of_close (h : r.Placed source) (hclose : r.close = .error e) :
    e.PointsInto source := by
  rw [close] at hclose
  split at hclose
  · cases hclose
  · next d hcurrent =>
    split at hclose
    · cases hclose
      have hmem : d ∈ r.begun := by simp [begun, hcurrent]
      obtain ⟨⟨text, hline⟩, -⟩ := h d hmem
      exact hline.pointsInto_start _
    · cases hclose

/-- **A line that is refused** is so at a place in the text. -/
theorem Placed.pointsInto (h : r.Placed source) (hl : l ∈ linesOf source)
    (hstep : r.step l = .error e) : e.PointsInto source := by
  rw [Reading.step] at hstep
  rcases hform : l.form with _ | text | text
  · rw [hform] at hstep
    cases hstep
  · have hline := onLine_of_sentence hl hform
    rw [hform] at hstep
    simp only at hstep
    split at hstep
    · cases hstep
      exact hline.pointsInto (Line.suffix_of_sentence hform).length_le _
    · rcases bind_eq_error_iff.mp hstep with hread | ⟨a, -, hstep⟩
      · exact pointsInto_of_readSentence hl hform hread
      · cases hstep
  · have hline := onLine_of_header hl hform
    rw [hform] at hstep
    rcases bind_eq_error_iff.mp hstep with hclose | ⟨complete, -, hstep⟩
    · exact h.pointsInto_of_close hclose
    rcases bind_eq_error_iff.mp hstep with hread | ⟨d, -, hstep⟩
    · exact pointsInto_of_readHeader hl hform hread
    split at hstep
    · cases hstep
      exact hline.pointsInto_start _
    · cases hstep

/-- After lines of the text, what has been read is placed in it, or the fault is. -/
theorem Placed.steps {ls : List Line} (h : r.Placed source) (hls : ∀ l ∈ ls, l ∈ linesOf source) :
    (∀ r', ls.foldlM Reading.step r = .ok r' → r'.Placed source) ∧
      ∀ e, ls.foldlM Reading.step r = .error e → e.PointsInto source := by
  induction ls generalizing r with
  | nil =>
    refine ⟨fun r' hr' => ?_, fun e he => ?_⟩
    · cases hr'
      exact h
    · cases he
  | cons l ls ih =>
    rw [List.forall_mem_cons] at hls
    rw [List.foldlM_cons]
    refine ⟨fun r' hsteps => ?_, fun e hsteps => ?_⟩
    · obtain ⟨r₁, hstep, hsteps⟩ := bind_eq_ok_iff.mp hsteps
      exact (ih (h.step hls.1 hstep) hls.2).1 r' hsteps
    · rcases bind_eq_error_iff.mp hsteps with hstep | ⟨r₁, hstep, hsteps⟩
      · exact h.pointsInto hls.1 hstep
      · exact (ih (h.step hls.1 hstep) hls.2).2 e hsteps

theorem placed_nothing (source : List Char) : Placed source {} := List.forall_mem_nil _

end Reading

/-- **What is read is placed in the text.** -/
theorem placed_of_read {source : String} {g : Grammar} (h : Grammar.read source = .ok g) :
    ∀ d ∈ g.definitions, d.Placed source.toList := by
  obtain ⟨ds, hread, hg⟩ := bind_eq_ok_iff.mp h
  obtain ⟨r, hsteps, hclose⟩ := bind_eq_ok_iff.mp hread
  cases hg
  obtain ⟨rfl, -⟩ := Reading.close_eq_ok_iff.mp hclose
  exact ((Reading.placed_nothing source.toList).steps fun _ hl => hl).1 r hsteps

/-- **A fault points into the text.** -/
theorem pointsInto_of_read {source : String} {e : SourceError}
    (h : Grammar.read source = .error e) : e.PointsInto source.toList := by
  have hsteps := (Reading.placed_nothing source.toList).steps fun _ hl => hl
  rcases bind_eq_error_iff.mp h with hread | ⟨ds, -, h⟩
  · rcases bind_eq_error_iff.mp hread with hread | ⟨r, hread, hclose⟩
    · exact hsteps.2 e hread
    · exact (hsteps.1 r hread).pointsInto_of_close hclose
  · cases h

end IntentGrammar
