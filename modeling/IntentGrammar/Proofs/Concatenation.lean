import IntentGrammar.Proofs.Readings
import IntentGrammar.Proofs.Renumbering

/-!
# One text behind another

Between two definitions reading keeps nothing but what it has read, and of that it looks at the keys
alone.  So a text that can be read, put behind another one that can be read and ends its last line,
defines what it defines by itself, on later lines, unless one of its keys is taken: then the first
definition with such a key is refused where it starts (**`texts_are_read_apart`**).

The proof runs through the second text twice, from the start and behind the first text, and `Joins`
says how the two runs stand to each other after every line.
-/

namespace IntentGrammar

/-! ### What a line does -/

namespace Reading

variable {r r' : Reading} {l : Line} {text : List Char}

theorem step_of_sentence {d : Definition} {a : Alternative} (h : l.form = .sentence text)
    (hcurrent : r.current = some d) (ha : l.readSentence text = .ok a) :
    r.step l = .ok { r with current := some { d with alternatives := d.alternatives ++ [a] } } := by
  rw [step, h]
  simp only [hcurrent, ha]
  rfl

theorem step_of_header {complete : List Definition} {d : Definition} (h : l.form = .header text)
    (hclose : r.close = .ok complete) (hd : l.readHeader text = .ok d) :
    r.step l = if d.key ∈ complete.map (·.key) then .error ⟨l.number, 1, .repeatedDefinition d.key⟩
      else .ok ⟨complete, some d⟩ := by
  rw [step, h]
  simp only [hclose, hd]
  rfl

/-- **What a line does** that can be taken into account: nothing, or it adds a sentence, or it
completes a definition and starts the next. -/
theorem step_cases (h : r.step l = .ok r') :
    (l.form = .skipped ∧ r' = r) ∨
    (∃ text d a, l.form = .sentence text ∧ r.current = some d ∧ l.readSentence text = .ok a ∧
      r' = { r with current := some { d with alternatives := d.alternatives ++ [a] } }) ∨
    ∃ text complete d, l.form = .header text ∧ r.close = .ok complete ∧
      l.readHeader text = .ok d ∧ d.key ∉ complete.map (·.key) ∧ r' = ⟨complete, some d⟩ := by
  rcases hform : l.form with _ | text | text
  · rw [step_of_skipped hform] at h
    exact .inl ⟨rfl, (Except.ok.inj h).symm⟩
  · rw [step, hform] at h
    rcases hcurrent : r.current with _ | d
    · simp only [hcurrent] at h
      cases h
    · simp only [hcurrent] at h
      obtain ⟨a, ha, h⟩ := bind_eq_ok_iff.mp h
      exact .inr (.inl ⟨text, d, a, rfl, rfl, ha, (Except.ok.inj h).symm⟩)
  · have hstep := h
    rw [step, hform] at h
    obtain ⟨complete, hclose, h⟩ := bind_eq_ok_iff.mp h
    obtain ⟨d, hd, -⟩ := bind_eq_ok_iff.mp h
    rw [step_of_header hform hclose hd] at hstep
    split at hstep
    · cases hstep
    · next hnew => exact .inr (.inr ⟨text, complete, d, rfl, hclose, hd, hnew,
        (Except.ok.inj hstep).symm⟩)

end Reading

theorem Line.line_of_readHeader {l : Line} {text : List Char} {d : Definition}
    (h : l.readHeader text = .ok d) : d.line = l.number := by
  obtain ⟨⟨key, arguments⟩, -, h⟩ := bind_eq_ok_iff.mp h
  simp only at h
  split at h
  · cases h
  · cases h
    rfl

/-! ### Keys that are taken -/

/-- The fault of a definition that has the key of one of the definitions `ds`. -/
def clash? (ds : List Definition) (d : Definition) : Option SourceError :=
  if d.key ∈ ds.map (·.key) then some ⟨d.line, 1, .repeatedDefinition d.key⟩ else none

/-- What two texts define, one behind the other, if the first one defines `ds` and the second one
`ds'`. -/
def joined (ds ds' : List Definition) : Except SourceError (List Definition) :=
  match ds'.findSome? (clash? ds) with
  | none => .ok (ds ++ ds')
  | some e => .error e

theorem joined_of_apart {ds ds' : List Definition} (h : ∀ d ∈ ds', d.key ∉ ds.map (·.key)) :
    joined ds ds' = .ok (ds ++ ds') := by
  have hnone : ds'.findSome? (clash? ds) = none :=
    List.findSome?_eq_none_iff.mpr fun d hd => if_neg (h d hd)
  rw [joined, hnone]

/-- The first definition whose key is taken is refused. -/
theorem joined_of_find? {ds ds' : List Definition} {d : Definition}
    (h : ds'.find? (fun d => d.key ∈ ds.map (·.key)) = some d) :
    joined ds ds' = .error ⟨d.line, 1, .repeatedDefinition d.key⟩ := by
  obtain ⟨htaken, before, behind, rfl, hfree⟩ := List.find?_eq_some_iff_append.mp h
  have hnone : before.findSome? (clash? ds) = none :=
    List.findSome?_eq_none_iff.mpr fun d' hd' => if_neg (by simpa using hfree d' hd')
  have hd : clash? ds d = some ⟨d.line, 1, .repeatedDefinition d.key⟩ :=
    if_pos (of_decide_eq_true htaken)
  rw [joined, List.findSome?_append, hnone, Option.none_or, List.findSome?_cons, hd]

/-- How reading a second text by itself, which has come to `r`, stands to reading it behind a first
text, of which `first` was read and which defines `ds`. -/
inductive Joins (ds : List Definition) (first : Reading) :
    Reading → Except SourceError Reading → Prop
  | nothing : Joins ds first {} (.ok first)
  | inside {complete : List Definition} {d : Definition}
      (h : (complete ++ [d]).findSome? (clash? ds) = none) :
      Joins ds first ⟨complete, some d⟩ (.ok ⟨ds ++ complete, some d⟩)
  | clash {r : Reading} {e : SourceError} (h : r.begun.findSome? (clash? ds) = some e) :
      Joins ds first r (.error e)

section Joins

variable {ds complete : List Definition} {first r q : Reading} {d : Definition} {l : Line}
  {text : List Char} {m : Except SourceError Reading}

/-- A sentence more does not change which keys are taken. -/
theorem findSome?_clash?_add (ds complete : List Definition) (d : Definition) (a : Alternative) :
    (complete ++ [{ d with alternatives := d.alternatives ++ [a] }]).findSome? (clash? ds)
      = (complete ++ [d]).findSome? (clash? ds) := by
  rw [List.findSome?_append, List.findSome?_append]
  rfl

/-- A header behind definitions whose keys are not taken. -/
theorem joins_header (hfree : complete.findSome? (clash? ds) = none)
    (hform : l.form = .header text) (hd : l.readHeader text = .ok d)
    (hnew : d.key ∉ complete.map (·.key)) {r' : Reading} (hclose : r'.close = .ok (ds ++ complete)) :
    Joins ds first ⟨complete, some d⟩ (r'.step l) := by
  have hbegun : (complete ++ [d]).findSome? (clash? ds) = clash? ds d := by
    rw [List.findSome?_append, hfree, Option.none_or, List.findSome?_singleton]
  rw [Reading.step_of_header hform hclose hd, ← Line.line_of_readHeader hd]
  -- by itself the second text has a new key here, so only the first text can have taken it
  by_cases htaken : d.key ∈ ds.map (·.key)
  · rw [if_pos (by rw [List.map_append]; exact List.mem_append_left _ htaken)]
    refine .clash (hbegun.trans ?_)
    rw [clash?, if_pos htaken]
  · rw [if_neg (by rw [List.map_append, List.mem_append, not_or]; exact ⟨htaken, hnew⟩)]
    refine .inside (hbegun.trans ?_)
    rw [clash?, if_neg htaken]

/-- **One line more** of the second text. -/
theorem Joins.step (h : Joins ds first r m) (hfirst : first.close = .ok ds)
    (hstep : r.step l = .ok q) : Joins ds first q (m >>= (·.step l)) := by
  rcases Reading.step_cases hstep with ⟨hform, rfl⟩ | ⟨text, d, a, hform, hcurrent, ha, rfl⟩ |
    ⟨text, complete, d, hform, hclose, hd, hnew, rfl⟩
  · -- the line says nothing
    rcases m with e | r'
    · exact h
    · show Joins ds first q (r'.step l)
      rwa [Reading.step_of_skipped hform]
  · -- a sentence, so that a definition of the second text has begun
    cases h with
    | nothing => cases hcurrent
    | inside h =>
      cases hcurrent
      show Joins ds first _ (Reading.step _ l)
      rw [Reading.step_of_sentence hform rfl ha]
      exact .inside ((findSome?_clash?_add ds _ d a).trans h)
    | clash h =>
      refine .clash ?_
      rw [← h, Reading.begun, Reading.begun, hcurrent]
      exact findSome?_clash?_add ds r.complete d a
  · -- a header, which completes the definition in front of it in both runs
    obtain ⟨rfl, hsome⟩ := Reading.close_eq_ok_iff.mp hclose
    cases h with
    | nothing =>
      refine joins_header rfl hform hd hnew (hfirst.trans ?_)
      exact congrArg _ (List.append_nil ds).symm
    | @inside complete d' h =>
      refine joins_header h hform hd hnew (Reading.close_eq_ok_iff.mpr ⟨?_, hsome⟩)
      exact (List.append_assoc ds complete [d']).symm
    | clash h =>
      refine .clash ?_
      show (r.begun ++ [d]).findSome? (clash? ds) = _
      rw [List.findSome?_append, h]
      rfl

/-- **All lines** of the second text. -/
theorem Joins.steps {ls : List Line} (h : Joins ds first r m) (hfirst : first.close = .ok ds)
    (hsteps : ls.foldlM Reading.step r = .ok q) :
    Joins ds first q (m >>= fun r' => ls.foldlM Reading.step r') := by
  induction ls generalizing r m with
  | nil =>
    cases hsteps
    rcases m with e | r'
    · exact h
    · exact h
  | cons l ls ih =>
    obtain ⟨r₁, hstep, hsteps⟩ := bind_eq_ok_iff.mp hsteps
    have hrest := ih (h.step hfirst hstep) hsteps
    rwa [bind_assoc] at hrest

/-- What is defined in the end. -/
theorem Joins.close {ds' : List Definition} (h : Joins ds first q m) (hfirst : first.close = .ok ds)
    (hclose : q.close = .ok ds') : m >>= Reading.close = joined ds ds' := by
  obtain ⟨rfl, hsome⟩ := Reading.close_eq_ok_iff.mp hclose
  cases h with
  | nothing =>
    show first.close = .ok (ds ++ [])
    rw [hfirst, List.append_nil]
  | @inside complete d h =>
    have hjoined : joined ds (complete ++ [d]) = .ok (ds ++ (complete ++ [d])) := by
      rw [joined, h]
    have hboth : Reading.close ⟨ds ++ complete, some d⟩ = .ok (ds ++ (complete ++ [d])) :=
      Reading.close_eq_ok_iff.mpr ⟨(List.append_assoc ds complete [d]).symm, hsome⟩
    exact hboth.trans hjoined.symm
  | clash h =>
    rw [joined, h]
    rfl

end Joins

/-! ### The theorem -/

/-- Lines behind other lines, if both can be read by themselves. -/
theorem readLines_append {ls ls' : List Line} {ds ds' : List Definition}
    (h : readLines ls = .ok ds) (h' : readLines ls' = .ok ds') :
    readLines (ls ++ ls') = joined ds ds' := by
  obtain ⟨first, hsteps, hfirst⟩ := bind_eq_ok_iff.mp h
  obtain ⟨q, hsteps', hclose⟩ := bind_eq_ok_iff.mp h'
  have hstart : Joins ds first {} (.ok first) := .nothing
  have hjoins := hstart.steps hfirst hsteps'
  rw [readLines, List.foldlM_append, hsteps]
  exact hjoins.close hfirst hclose

/-- A text behind another one that ends its last line. -/
theorem readDefinitions_joined {before behind : List Char} {ds ds' : List Definition}
    (hbefore : EndsLine before) (h : readDefinitions before = .ok ds)
    (h' : readDefinitions behind = .ok ds') :
    readDefinitions (before ++ behind)
      = joined ds (ds'.map (·.renumber (· + before.count '\n'))) := by
  obtain ⟨front, -, hlines⟩ := exists_linesOf_append hbefore
  -- the last line of the first text is empty
  have hfront : readLines front = .ok ds := by
    have hlast := hlines []
    rw [List.append_nil] at hlast
    rw [readDefinitions_eq, hlast] at h
    rw [← h]
    exact (congrArg readLines (List.append_nil front).symm).trans (readLines_skip rfl).symm
  have hbehind : readLines ((linesOf behind).map (·.renumber (· + before.count '\n')))
      = .ok (ds'.map (·.renumber (· + before.count '\n'))) := by
    rw [readLines_renumber, ← readDefinitions_eq, h']
    rfl
  rw [readDefinitions_eq, hlines]
  exact readLines_append hfront hbehind

theorem read_of_ok {source : String} {ds : List Definition}
    (h : readDefinitions source.toList = .ok ds) : Grammar.read source = .ok ⟨ds, source⟩ := by
  rw [Grammar.read, h]
  rfl

theorem read_of_error {source : String} {e : SourceError}
    (h : readDefinitions source.toList = .error e) : Grammar.read source = .error e := by
  rw [Grammar.read, h]
  rfl

theorem definitions_of_read {source : String} {g : Grammar} (h : Grammar.read source = .ok g) :
    readDefinitions source.toList = .ok g.definitions := by
  obtain ⟨ds, hds, hg⟩ := bind_eq_ok_iff.mp h
  cases hg
  exact hds

/-- **Two texts one behind the other.**  If both can be read and the first one ends its last line,
then together they define what each defines by itself, the second one on lines that come after
those of the first; unless a key of the second text is a key of the first, in which case the first
definition with such a key is refused at the start of its line. -/
theorem texts_are_read_apart {source source' : String} {g g' : Grammar}
    (h : Grammar.read source = .ok g) (h' : Grammar.read source' = .ok g')
    (hend : EndsLine source.toList) :
    ((∀ d ∈ g'.definitions, d.key ∉ g.definitions.map (·.key)) →
      Grammar.read (source ++ source') = .ok
        ⟨g.definitions ++ g'.definitions.map (·.renumber (· + source.toList.count '\n')),
          source ++ source'⟩) ∧
    ((∃ d ∈ g'.definitions, d.key ∈ g.definitions.map (·.key)) →
      ∃ d, g'.definitions.find? (fun d => d.key ∈ g.definitions.map (·.key)) = some d ∧
        Grammar.read (source ++ source') = .error
          ⟨d.line + source.toList.count '\n', 1, .repeatedDefinition d.key⟩) := by
  have hboth := readDefinitions_joined hend (definitions_of_read h) (definitions_of_read h')
  rw [← String.toList_append] at hboth
  constructor
  · intro hapart
    refine read_of_ok (hboth.trans (joined_of_apart ?_))
    rw [List.forall_mem_map]
    exact hapart
  · rintro ⟨d, hd, htaken⟩
    have hsome : (g'.definitions.find? fun d => d.key ∈ g.definitions.map (·.key)).isSome :=
      List.find?_isSome.mpr ⟨d, hd, decide_eq_true htaken⟩
    obtain ⟨d', hfind⟩ := Option.isSome_iff_exists.mp hsome
    refine ⟨d', hfind, read_of_error (hboth.trans ?_)⟩
    have hmoved := congrArg (Option.map (·.renumber (· + source.toList.count '\n'))) hfind
    exact joined_of_find? (List.find?_map.trans hmoved)

/-- A greeting by name. -/
def greetingText : String := "%[greet]\n hello @[name]\n"

/-- Names to greet. -/
def namesText : String := "\n@[name]\n bob\n"

/-- The greeting as it is read. -/
def Definition.greeting : Definition :=
  ⟨⟨.intent, "greet", none⟩, [],
    [⟨[.literal "hello" false, .reference ⟨.slot, "name", none, false, 8⟩], none, 2⟩], 1⟩

/-- The names as they are read, with their header on the given line. -/
def Definition.names (line : Nat) : Definition :=
  ⟨⟨.slot, "name", none⟩, [], [⟨[.literal "bob" false], none, line + 1⟩], line⟩

set_option maxRecDepth 4000 in
theorem read_greetingText :
    Grammar.read greetingText = .ok ⟨[.greeting], greetingText⟩ := by
  cbv

set_option maxRecDepth 4000 in
theorem read_namesText : Grammar.read namesText = .ok ⟨[.names 2], namesText⟩ := by
  cbv

/-- Behind the greeting the names stand on later lines, and the greeting itself is refused. -/
theorem texts_of_greeting :
    Grammar.read greetingText = .ok ⟨[.greeting], greetingText⟩ ∧
    Grammar.read namesText = .ok ⟨[.names 2], namesText⟩ ∧
    EndsLine greetingText.toList ∧
    Grammar.read (greetingText ++ namesText)
      = .ok ⟨[.greeting, .names 4], greetingText ++ namesText⟩ ∧
    Grammar.read (greetingText ++ greetingText)
      = .error ⟨3, 1, .repeatedDefinition ⟨.intent, "greet", none⟩⟩ := by
  have hend : EndsLine greetingText.toList := by
    rintro c ⟨⟩
    rfl
  have hcount : greetingText.toList.count '\n' = 2 := by decide
  obtain ⟨hnames, -⟩ := texts_are_read_apart read_greetingText read_namesText hend
  obtain ⟨-, htwice⟩ := texts_are_read_apart read_greetingText read_greetingText hend
  refine ⟨read_greetingText, read_namesText, hend, ?_, ?_⟩
  · rw [hnames (by decide), hcount]
    rfl
  · obtain ⟨d, hfind, hread⟩ := htwice ⟨.greeting, List.mem_cons_self, by decide⟩
    cases hfind
    rw [hread, hcount]
    rfl

end IntentGrammar
