import IntentGrammar.Plan
import IntentGrammar.Proofs.Agreement
import IntentGrammar.Proofs.Labels
import IntentGrammar.Proofs.Sentences
import IntentGrammar.Proofs.Shares

/-!
# What reading guarantees

Much of what later stages rely on is settled when the text of a grammar is read, in different
places: a definition is completed where the next header starts or the text ends, and only if it has
a sentence; its key is compared with those before it; its arguments are checked with its header;
names and weights are checked piece by piece.  `Grammar.Sound` collects all of it.

Lines are taken into account one after the other, and what has been read so far is sound after each
(`Reading.Sound.step`), so that every grammar that is read is (`sound_of_read`).  Hence two errors
of later stages do not occur, the two ways to look up a key agree, and no number in the header of an
intent is overlooked (**`readings_are_sound`**).
-/

namespace IntentGrammar

open Text

/-! ### Sound grammars -/

/-- What is known of an element: a literal is trimmed text without brackets, and a reference asks
for a slot or an alias by tidy parts. -/
def Element.Sound : Element → Prop
  | .literal text _ => text ≠ "" ∧ trim text.toList = text.toList ∧ Plain text.toList
  | .reference r => r.kind ≠ .intent ∧ TidyParts r.name r.argument

/-- What is known of a sentence. -/
structure Alternative.Sound (a : Alternative) : Prop where
  elements_ne_nil : a.elements ≠ []
  elements : ∀ e ∈ a.elements, e.Sound
  weight : ∀ w ∈ a.weight, (0.0 : Float) < w ∧ w ≤ 100.0

/-- The arguments that are numbers of utterances. -/
def countArguments : List String := ["training", "testing"]

/-- What is known of a definition once its header has been read. -/
structure Definition.Sound (d : Definition) : Prop where
  header : HeaderSound d.key d.arguments
  counts : ∀ name ∈ countArguments, ∀ value, (name, value) ∈ d.arguments →
    d.key.kind = .intent ∧ ∃ n, readCount? value = some n
  distribution : ∀ value, ("distribution", value) ∈ d.arguments →
    ∃ x, Distribution.read? value = some x
  alternatives : ∀ a ∈ d.alternatives, a.Sound

/-- The numbers of the lines of a definition, that of its header first. -/
def Definition.lines (d : Definition) : List Nat := d.line :: d.alternatives.map (·.line)

/-- What is known of a grammar that has been read. -/
structure Grammar.Sound (g : Grammar) : Prop where
  distinct : g.Distinct
  alternatives_ne_nil : ∀ d ∈ g.definitions, d.alternatives ≠ []
  definitions : ∀ d ∈ g.definitions, d.Sound
  lines : (g.definitions.flatMap Definition.lines).Pairwise (· < ·)

/-! ### Sentences -/

section Sentences

variable {column number width : Nat} {text body cs : List Char}

theorem sound_literal (hplain : Plain text) (hsome : trim text ≠ []) (optional : Bool) :
    (Element.literal (String.ofList (trim text)) optional).Sound := by
  have hchars : (String.ofList (trim text)).toList = trim text := String.toList_ofList
  refine ⟨fun h => hsome ?_, ?_, fun c hc => hplain c (trim_subset text (hchars ▸ hc))⟩
  · rw [← hchars, h]
    rfl
  · rw [hchars]
    exact (trimmed_trim text).trim_eq

theorem sound_stretch (hplain : Plain text) : ∀ e ∈ stretch text, e.Sound := by
  intro e he
  rw [stretch] at he
  split at he
  · cases he
  · next hsome =>
    obtain rfl := List.mem_singleton.mp he
    apply sound_literal hplain
    rwa [Ne, trim_eq_nil_iff, ← List.all_eq_true]

theorem Mark.Means.sound {mark : Mark} {e : Element} (h : mark.Means column body e)
    (hplain : Plain body) (hline : '\n' ∉ body) : e.Sound := by
  cases mark with
  | «alias» | slot =>
    obtain ⟨label, hlabel, rfl⟩ := h
    exact ⟨nofun, Label.tidy_of_read hplain hline hlabel⟩
  | optional =>
    obtain ⟨⟨c, hc, hblank⟩, rfl⟩ := h
    apply sound_literal hplain
    intro hnil
    rw [trim_eq_nil_iff.mp hnil c hc] at hblank
    cases hblank

/-- All that a text on one line comprises is sound. -/
theorem Comprises.sound {es : List Element} (h : Comprises column cs es) (hline : '\n' ∉ cs) :
    ∀ e ∈ es, e.Sound := by
  induction h with
  | last hplain => exact sound_stretch hplain
  | @group _ text body rest mark e es hplain hbody hmeans _ ih =>
    have hbodyLine : '\n' ∉ body := fun hmem => hline (by simp [Mark.group, hmem])
    have hrestLine : '\n' ∉ rest := fun hmem => hline (by simp [hmem])
    intro x hx
    rcases List.mem_append.mp hx with hx | hx
    · exact sound_stretch hplain x hx
    · rcases List.mem_cons.mp hx with rfl | hx
      · exact hmeans.sound hbody hbodyLine
      · exact ih hrestLine x hx

/-- A weight that is read is a percentage. -/
theorem range_of_readPercentage {value : Float} (h : readPercentage body = .ok value) :
    (0.0 : Float) < value ∧ value ≤ 100.0 := by
  unfold readPercentage at h
  simp only at h
  split at h
  · split at h
    · cases h
    · split at h
      · next hrange =>
        cases h
        simpa using hrange
      · cases h
  · cases h

theorem sound_of_readSentence {a : Alternative} {left : List Char} (hwidth : text.length ≤ width)
    (hline : '\n' ∉ text) (h : readSentence number width text = .ok (a, left)) :
    a.Sound ∧ a.line = number := by
  obtain ⟨-, hnumber, hsome, front, rest, ps, rfl, hweight, hspells, hmake⟩ :=
    readSentence_eq_ok_iff.mp h
  rw [List.length_append] at hwidth
  have hcomprises := (comprises_iff (by omega)).mpr ⟨ps, hspells, hmake⟩
  refine ⟨⟨hsome, hcomprises.sound fun hmem => hline (by simp [hmem]), ?_⟩, hnumber⟩
  intro w hw
  rw [Option.mem_def] at hw
  rw [hw] at hweight
  cases hweight with
  | present _ hvalue => exact range_of_readPercentage hvalue

end Sentences

/-! ### Headers -/

/-- An argument is found by its name if no other has this name. -/
theorem lookup_eq_some_of_mem {arguments : List (String × String)} {name value : String}
    (hnodup : (arguments.map Prod.fst).Nodup) (h : (name, value) ∈ arguments) :
    arguments.lookup name = some value := by
  induction arguments with
  | nil => cases h
  | cons a arguments ih =>
    rw [List.map_cons, List.nodup_cons] at hnodup
    rcases List.mem_cons.mp h with rfl | h
    · exact List.lookup_cons_self
    · have hne : (name == a.1) = false := by
        rw [beq_eq_false_iff_ne]
        rintro rfl
        exact hnodup.1 (List.mem_map.mpr ⟨_, h, rfl⟩)
      rw [List.lookup_cons, hne]
      exact ih hnodup.2 h

/-- What the check of the arguments lets pass. -/
theorem of_argumentFault?_eq_none {key : Key} {arguments : List (String × String)}
    (h : argumentFault? key arguments = none) :
    (∀ name ∈ countArguments, ∀ value, arguments.lookup name = some value →
      key.kind = .intent ∧ ∃ n, readCount? value = some n) ∧
    ∀ value, arguments.lookup "distribution" = some value →
      ∃ x, Distribution.read? value = some x := by
  have hcount (name value : String) (hvalue : arguments.lookup name = some value)
      (h : (do
        let value ← arguments.lookup name
        if key.kind ≠ .intent then some (Fault.countOutsideIntent name key)
        else if (readCount? value).isSome then none
        else some (.badCount name value)) = none) :
      key.kind = .intent ∧ ∃ n, readCount? value = some n := by
    simp only [hvalue, Option.bind_eq_bind, Option.bind_some] at h
    split at h
    · cases h
    · next hkind =>
      split at h
      · next hsome => exact ⟨not_not.mp hkind, Option.isSome_iff_exists.mp hsome⟩
      · cases h
  unfold argumentFault? at h
  simp only [HOrElse.hOrElse, OrElse.orElse, Option.orElse_eq_or, Option.or_eq_none_iff] at h
  obtain ⟨hdistribution, htraining, htesting⟩ := h
  refine ⟨?_, ?_⟩
  · intro name hname value hvalue
    rw [countArguments, List.mem_pair] at hname
    rcases hname with rfl | rfl
    · exact hcount _ _ hvalue htraining
    · exact hcount _ _ hvalue htesting
  · intro value hvalue
    simp only [hvalue, Option.bind_eq_bind, Option.bind_some] at hdistribution
    split at hdistribution
    · next hsome => exact Option.isSome_iff_exists.mp hsome
    · cases hdistribution

/-- A definition starts with its header, and without sentences. -/
theorem Line.sound_of_readHeader {l : Line} {text : List Char} {d : Definition}
    (hline : '\n' ∉ text) (h : l.readHeader text = .ok d) :
    d.Sound ∧ d.line = l.number ∧ d.alternatives = [] := by
  obtain ⟨⟨key, arguments⟩, hread, h⟩ := bind_eq_ok_iff.mp h
  have hheader := header_of_read hline (mapError_eq_ok_iff.mp hread)
  simp only at h
  split at h
  · cases h
  · next hnone =>
    cases h
    obtain ⟨hcounts, hdistribution⟩ := of_argumentFault?_eq_none hnone
    refine ⟨⟨hheader, ?_, ?_, nofun⟩, rfl, rfl⟩
    · intro name hname value hvalue
      exact hcounts name hname value (lookup_eq_some_of_mem hheader.nodup hvalue)
    · intro value hvalue
      exact hdistribution value (lookup_eq_some_of_mem hheader.nodup hvalue)

/-! ### Lines -/

/-- What is read of a line is on it. -/
theorem Line.form_eq_header {l : Line} {text : List Char} (h : l.form = .header text) :
    text = l.text := by
  unfold Line.form at h
  split at h
  · cases h
  · split at h
    · split at h
      · cases h
      · cases h
    · split at h
      · cases h
      · cases h
        rfl

theorem Line.form_eq_sentence {l : Line} {text : List Char} (h : l.form = .sentence text) :
    text = skipIndent l.text := by
  unfold Line.form at h
  split at h
  · cases h
  · split at h
    · split at h
      · cases h
      · cases h
        rfl
    · split at h
      · cases h
      · cases h

/-- The lines of a text are numbered upwards, and none has a line feed. -/
theorem pairwise_linesOf (source : List Char) :
    (linesOf source).Pairwise fun l l' => l.number < l'.number := by
  have hnumbers : (linesOf source).map Line.number
      = (List.range' 0 (splitLines source).length).map (· + 1) := by
    rw [linesOf, List.map_map, ← List.zipIdx_map_snd, List.map_map]
    rfl
  rw [← List.pairwise_map (f := Line.number) (R := (· < ·)), hnumbers, List.pairwise_map]
  exact (List.pairwise_lt_range' 1).imp fun h => Nat.succ_lt_succ h

theorem line_of_mem_linesOf {source : List Char} {l : Line} (h : l ∈ linesOf source) :
    '\n' ∉ l.text := by
  obtain ⟨⟨text, i⟩, htext, rfl⟩ := List.mem_map.mp h
  have hpiece := notMem_of_mem_cut (List.fst_mem_of_mem_zipIdx htext)
  exact fun hmem => hpiece ((trimEnd_isPrefix text).subset hmem)

/-! ### One line after the other -/

/-- The definitions that have begun so far, the one that is not complete last. -/
def Reading.begun (r : Reading) : List Definition := r.complete ++ r.current.toList

/-- What is known of the definitions read so far, if the next line has the number `next` or a
larger one. -/
structure Reading.Sound (r : Reading) (next : Nat) : Prop where
  distinct : (r.begun.map (·.key)).Nodup
  alternatives_ne_nil : ∀ d ∈ r.complete, d.alternatives ≠ []
  definitions : ∀ d ∈ r.begun, d.Sound
  lines : (r.begun.flatMap Definition.lines).Pairwise (· < ·)
  read : ∀ n ∈ r.begun.flatMap Definition.lines, n < next

namespace Reading

variable {r r' : Reading} {next : Nat} {l : Line}

theorem sound_nothing : Sound {} 0 where
  distinct := List.nodup_nil
  alternatives_ne_nil := nofun
  definitions := nofun
  lines := List.Pairwise.nil
  read := nofun

theorem Sound.of_le {next' : Nat} (h : r.Sound next) (hle : next ≤ next') : r.Sound next' :=
  { h with read := fun n hn => (h.read n hn).trans_le hle }

/-- A definition is completed if it has a sentence. -/
theorem close_eq_ok_iff {ds : List Definition} :
    r.close = .ok ds ↔ ds = r.begun ∧ ∀ d ∈ r.current, d.alternatives ≠ [] := by
  rw [close, begun]
  rcases r.current with _ | d
  · constructor
    · intro h
      cases h
      exact ⟨(List.append_nil _).symm, nofun⟩
    · rintro ⟨rfl, -⟩
      exact congrArg _ (List.append_nil _).symm
  · simp only [List.isEmpty_iff]
    constructor
    · intro h
      split at h
      · cases h
      · next hsome =>
        cases h
        refine ⟨rfl, ?_⟩
        rintro d' ⟨⟩
        exact hsome
    · rintro ⟨rfl, hsome⟩
      rw [if_neg (hsome d rfl)]
      rfl

/-- What is complete has sentences throughout. -/
theorem Sound.close {ds : List Definition} (h : r.Sound next) (hclose : r.close = .ok ds) :
    ds = r.begun ∧ ∀ d ∈ ds, d.alternatives ≠ [] := by
  obtain ⟨rfl, hlast⟩ := close_eq_ok_iff.mp hclose
  refine ⟨rfl, fun d hd => ?_⟩
  rcases List.mem_append.mp hd with hd | hd
  · exact h.alternatives_ne_nil d hd
  · exact hlast d (Option.mem_toList.mp hd)

/-- A header starts the next definition. -/
theorem Sound.header {d : Definition} (h : r.Sound next) (hnext : next ≤ l.number)
    (hsome : ∀ d ∈ r.begun, d.alternatives ≠ []) (hd : d.Sound) (hnumber : d.line = l.number)
    (hnothing : d.alternatives = []) (hnew : d.key ∉ r.begun.map (·.key)) :
    Sound { complete := r.begun, current := some d } (l.number + 1) := by
  have hlines : d.lines = [l.number] := by rw [Definition.lines, hnothing, hnumber]; rfl
  refine ⟨?_, hsome, ?_, ?_, ?_⟩ <;> rw [begun, Option.toList_some]
  · rw [List.map_append, List.map_singleton, ← List.concat_eq_append]
    exact h.distinct.concat hnew
  · intro d' hd'
    rcases List.mem_append.mp hd' with hd' | hd'
    · exact h.definitions d' hd'
    · exact List.mem_singleton.mp hd' ▸ hd
  · rw [List.flatMap_append, List.flatMap_singleton, hlines, List.pairwise_append]
    refine ⟨h.lines, List.pairwise_singleton _ _, fun n hn m hm => ?_⟩
    rw [List.mem_singleton.mp hm]
    exact (h.read n hn).trans_le hnext
  · intro n hn
    rw [List.flatMap_append, List.flatMap_singleton, hlines] at hn
    rcases List.mem_append.mp hn with hn | hn
    · exact (h.read n hn).trans_le (hnext.trans (Nat.le_succ _))
    · rw [List.mem_singleton.mp hn]
      exact Nat.lt_succ_self _

/-- A sentence is added to the current definition. -/
theorem Sound.sentence {d : Definition} {a : Alternative} (h : r.Sound next)
    (hnext : next ≤ l.number) (hcurrent : r.current = some d) (ha : a.Sound)
    (hnumber : a.line = l.number) :
    Sound { r with current := some { d with alternatives := d.alternatives ++ [a] } }
      (l.number + 1) := by
  have hbegun : r.begun = r.complete ++ [d] := by
    rw [begun, hcurrent]
    rfl
  have hlines : Definition.lines { d with alternatives := d.alternatives ++ [a] }
      = d.lines ++ [l.number] := by
    simp only [Definition.lines, List.map_append, List.map_singleton, hnumber, List.cons_append]
  obtain ⟨hdistinct, hsome, hsound, hpairwise, hread⟩ := h
  rw [hbegun] at hdistinct hsound hpairwise hread
  rw [List.flatMap_append, List.flatMap_singleton] at hpairwise hread
  refine ⟨?_, hsome, ?_, ?_, ?_⟩ <;> rw [begun, Option.toList_some]
  · simpa using hdistinct
  · intro d' hd'
    rcases List.mem_append.mp hd' with hd' | hd'
    · exact hsound d' (List.mem_append_left _ hd')
    · obtain rfl := List.mem_singleton.mp hd'
      have hd := hsound d (by simp)
      refine { hd with alternatives := fun a' ha' => ?_ }
      rcases List.mem_append.mp ha' with ha' | ha'
      · exact hd.alternatives a' ha'
      · exact List.mem_singleton.mp ha' ▸ ha
  · rw [List.flatMap_append, List.flatMap_singleton, hlines, ← List.append_assoc,
      List.pairwise_append]
    refine ⟨hpairwise, List.pairwise_singleton _ _, fun n hn m hm => ?_⟩
    rw [List.mem_singleton.mp hm]
    exact (hread n hn).trans_le hnext
  · intro n hn
    rw [List.flatMap_append, List.flatMap_singleton, hlines, ← List.append_assoc] at hn
    rcases List.mem_append.mp hn with hn | hn
    · exact (hread n hn).trans_le (hnext.trans (Nat.le_succ _))
    · rw [List.mem_singleton.mp hn]
      exact Nat.lt_succ_self _

/-- **What has been read stays sound** with every line. -/
theorem Sound.step (h : r.Sound next) (hnext : next ≤ l.number) (hline : '\n' ∉ l.text)
    (hstep : r.step l = .ok r') : r'.Sound (l.number + 1) := by
  unfold Reading.step at hstep
  split at hstep
  · cases hstep
    exact h.of_le (hnext.trans (Nat.le_succ _))
  · next text hform =>
    have htext := Line.form_eq_sentence hform
    split at hstep
    · cases hstep
    · next d hcurrent =>
      obtain ⟨a, hread, hstep⟩ := bind_eq_ok_iff.mp hstep
      obtain ⟨⟨a', left⟩, hread, ha⟩ := bind_eq_ok_iff.mp hread
      cases ha
      cases hstep
      have hwidth : text.length ≤ l.text.length := htext ▸ length_dropWhile_le isIndent l.text
      have hfree : '\n' ∉ text := by
        rw [htext]
        exact fun hmem => hline ((List.dropWhile_sublist isIndent).subset hmem)
      obtain ⟨hsound, hnumber⟩ :=
        sound_of_readSentence hwidth hfree (mapError_eq_ok_iff.mp hread)
      exact h.sentence hnext hcurrent hsound hnumber
  · next text hform =>
    obtain rfl := Line.form_eq_header hform
    obtain ⟨complete, hclose, hstep⟩ := bind_eq_ok_iff.mp hstep
    obtain ⟨d, hread, hstep⟩ := bind_eq_ok_iff.mp hstep
    obtain ⟨rfl, hsome⟩ := h.close hclose
    obtain ⟨hd, hnumber, hnothing⟩ := Line.sound_of_readHeader hline hread
    split at hstep
    · cases hstep
    · next hnew =>
      cases hstep
      exact h.header hnext hsome hd hnumber hnothing hnew

/-- What has been read stays sound from line to line. -/
theorem Sound.steps {ls : List Line} (h : r.Sound next) (hnext : ∀ l ∈ ls, next ≤ l.number)
    (hnumbers : ls.Pairwise fun l l' => l.number < l'.number) (hlines : ∀ l ∈ ls, '\n' ∉ l.text)
    (hsteps : ls.foldlM Reading.step r = .ok r') : ∃ next', r'.Sound next' := by
  induction ls generalizing r next with
  | nil =>
    cases hsteps
    exact ⟨next, h⟩
  | cons l ls ih =>
    obtain ⟨r₁, hstep, hsteps⟩ := bind_eq_ok_iff.mp hsteps
    obtain ⟨hlater, hnumbers⟩ := List.pairwise_cons.mp hnumbers
    have hsound := h.step (hnext l List.mem_cons_self) (hlines l List.mem_cons_self) hstep
    exact ih hsound (fun l' hl' => hlater l' hl') hnumbers
      (fun l' hl' => hlines l' (List.mem_cons_of_mem l hl')) hsteps

end Reading

/-- **Every grammar that is read is sound.** -/
theorem sound_of_read {source : String} {g : Grammar} (h : Grammar.read source = .ok g) :
    g.Sound := by
  obtain ⟨ds, hread, hg⟩ := bind_eq_ok_iff.mp h
  obtain ⟨r, hsteps, hclose⟩ := bind_eq_ok_iff.mp hread
  cases hg
  obtain ⟨next, hsound⟩ := Reading.sound_nothing.steps (fun _ _ => Nat.zero_le _)
    (pairwise_linesOf source.toList) (fun _ => line_of_mem_linesOf) hsteps
  obtain ⟨rfl, hsome⟩ := hsound.close hclose
  exact ⟨hsound.distinct, hsome, hsound.definitions, hsound.lines⟩

/-! ### Errors that do not occur -/

section Build

variable {g : Grammar} {ceiling : Nat} {graph : Graph}

/-- No reference to an intent is left to be found. -/
theorem Grammar.Sound.build_ne_intentReference (hg : g.Sound) (k l : Key) :
    Graph.build g ceiling ≠ .error (.intentReference k l) := by
  intro h
  rcases build_eq_error_iff.mp h with hlink | ⟨net, -, hprobabilities | ⟨ps, -, hcheck⟩⟩
  · obtain ⟨d, hd, a, ha, x, hx, hlink⟩ := exists_of_link_eq_error hlink
    obtain ⟨r, rfl, ⟨hintent, -⟩ | ⟨-, -, hother⟩⟩ := linkElement_eq_error_iff.mp hlink
    · have hr : Element.Sound (.reference r) :=
        ((hg.definitions d hd).alternatives a ha).elements _ hx
      exact hr.1 hintent
    · cases hother
  · cases check?_of_probabilities_eq_error hprobabilities
  · rcases of_check_eq_error hcheck with ⟨⟨_, hother⟩, -⟩ | ⟨⟨_, _, hother⟩, -⟩
    · cases hother
    · cases hother

/-- Probabilities are missing for want of sentences only where there are none. -/
theorem eq_nil_of_noSentences {α : Type} [WeightNumber α] {distribution : Distribution}
    {sentences : List (Option α × Cardinality)}
    (h : Weight.probabilities distribution ceiling sentences = .error .noSentences) :
    sentences = [] := by
  unfold Weight.probabilities at h
  simp only at h
  split at h
  · next hempty => exact List.isEmpty_iff.mp hempty
  · split at h
    · cases h
    · split at h
      · split at h
        · cases h
        · cases h
      · cases h

/-- No definition without sentences is left to be found. -/
theorem Grammar.Sound.build_ne_emptyDefinition (hg : g.Sound) (k : Key) :
    Graph.build g ceiling ≠ .error (.emptyDefinition k) := by
  intro h
  rcases build_eq_error_iff.mp h with hlink | ⟨net, hnet, hprobabilities | ⟨ps, -, hcheck⟩⟩
  · cases check?_of_link_eq_error hlink
  · obtain ⟨⟨v, tally⟩, hmem, hv⟩ :=
      exists_of_mapM_eq_error (vector_mapM_eq_error_iff.mp hprobabilities)
    obtain ⟨i, hi⟩ := exists_get_of_mem_toList hmem
    rw [get_zip_counts] at hi
    cases hi
    replace hv : (net.get i).probabilities ceiling (net.tally i).sentences
        = .error (.emptyDefinition k) := hv
    -- the definition has a sentence in the grammar, and so in the network
    obtain ⟨d, hd, hdi⟩ := exists_left_of_forall₂ (mirrors_of_link hnet) (mem_toList_get net i)
    have hsome : 0 < (net.get i).choices.length := by
      rw [← hdi.choices.length_eq]
      exact List.length_pos_of_ne_nil (hg.alternatives_ne_nil d hd)
    have hlength := length_sentences_tally net i
    rw [Node.probabilities] at hv
    rcases hfault : Weight.probabilities (net.get i).distribution ceiling
      (((net.get i).choices.map Choice.weight).zip (net.tally i).sentences) with fault | qs
    · rw [hfault] at hv
      cases fault with
      | noSentences =>
        have hnone := congrArg List.length (eq_nil_of_noSentences hfault)
        rw [List.length_zip, List.length_map, hlength, Nat.min_self, List.length_nil] at hnone
        omega
      | overHundred total => cases hv
    · rw [hfault] at hv
      cases hv
  · rcases of_check_eq_error hcheck with ⟨⟨_, hother⟩, -⟩ | ⟨⟨_, _, hother⟩, -⟩
    · cases hother
    · cases hother

/-! ### Looking up a key -/

/-- The definition at a number is the one that the node at that number mirrors. -/
theorem Network.Mirrors.exists_getElem? {n : Nat} {net : Network n} (h : net.Mirrors g)
    (i : Fin n) : ∃ d, g.definitions[i.val]? = some d ∧ Node.Mirrors net d (net.get i) := by
  have hlength : g.definitions.length = n := by rw [h.length_eq, Vector.length_toList]
  have hi : i.val < g.definitions.length := hlength.symm ▸ i.isLt
  refine ⟨g.definitions[i.val], List.getElem?_eq_getElem hi, ?_⟩
  exact h.get hi (by simp)

/-- **A key is looked up alike** in a grammar without repeated keys and in its graph. -/
theorem Grammar.Distinct.find?_eq (hg : g.Distinct) (h : Graph.build g ceiling = .ok graph)
    (key : Key) : g.find? key = (graph.find? key).bind fun v => g.definitions[v.val]? := by
  rcases hfind : graph.find? key with _ | v
  · show g.find? key = none
    rw [Grammar.find?, List.find?_eq_none]
    intro d hd hkey
    obtain ⟨v, hv, -⟩ := exists_find? h ⟨d, hd, of_decide_eq_true hkey⟩
    rw [hfind] at hv
    cases hv
  · obtain ⟨d, hd, hdv⟩ := (mirrors_of_build h).exists_getElem? v
    rw [Option.bind_some, hd]
    have hkey : d.key = key := by
      rw [← hdv.key]
      show (graph.node v).key = key
      have hfound := List.find?_some hfind
      simpa using hfound
    have hmem := List.mem_of_getElem? hd
    have hsome : (g.find? key).isSome := List.find?_isSome.mpr ⟨d, hmem, decide_eq_true hkey⟩
    obtain ⟨d', hd'⟩ := Option.isSome_iff_exists.mp hsome
    have hkey' : d'.key = key := by
      have hfound := List.find?_some hd'
      simpa using hfound
    rw [hd', hg.eq_of_key (List.mem_of_find?_eq_some hd') hmem (hkey'.trans hkey.symm)]

/-! ### Numbers in headers -/

/-- The number that an argument asks for; without the argument it is none. -/
def Node.Asks {n : Nat} (v : Node n) (name : String) (count : Nat) : Prop :=
  v.argument? name = none ∧ count = 0 ∨
    ∃ value, v.argument? name = some value ∧ readCount? value = some count

namespace Node

variable {n : Nat} {v : Node n} {training testing : Nat}

theorem Asks.getD_eq {name : String} {count : Nat} (h : v.Asks name count) :
    ((v.argument? name).bind readCount?).getD 0 = count := by
  rcases h with ⟨hnone, rfl⟩ | ⟨value, hvalue, hread⟩
  · rw [hnone]
    rfl
  · rw [hvalue, Option.bind_some, hread]
    rfl

theorem Asks.isSome_eq {name : String} {count : Nat} (h : v.Asks name count) :
    ((v.argument? name).bind readCount?).isSome = (v.argument? name).isSome := by
  rcases h with ⟨hnone, -⟩ | ⟨value, hvalue, hread⟩
  · rw [hnone]
    rfl
  · rw [hvalue, Option.bind_some, hread]
    rfl

/-- The numbers that a header asks for can be read, so their sum is what it asks for, if it fits. -/
theorem quotasFit_of_asks (htraining : v.Asks "training" training)
    (htesting : v.Asks "testing" testing) : v.QuotasFit ↔ training + testing ≤ maxCount := by
  rw [QuotasFit, trainingQuota, testingQuota, htraining.getD_eq, htesting.getD_eq]

theorem ownAmount?_of_asks (htraining : v.Asks "training" training)
    (htesting : v.Asks "testing" testing)
    (hsome : ∃ name ∈ countArguments, (v.argument? name).isSome)
    (hfits : training + testing ≤ maxCount) :
    v.ownAmount? = .ok (some (.samples (training + testing), testing)) := by
  have hasks : v.hasQuotas = true := by
    obtain ⟨name, hname, hpresent⟩ := hsome
    rw [hasQuotas, htraining.isSome_eq, htesting.isSome_eq, Bool.or_eq_true]
    rw [countArguments, List.mem_pair] at hname
    rcases hname with rfl | rfl
    · exact .inl hpresent
    · exact .inr hpresent
  rw [ownAmount?_eq, if_pos hasks, trainingQuota, testingQuota, htraining.getD_eq,
    htesting.getD_eq, checked_of_le hfits]
  rfl

end Node

theorem requested_chooseStrategy_samples (ceiling : Nat) (paths : Cardinality) (n : Nat) :
    (chooseStrategy ceiling paths (.samples n)).2.2 = some n := by
  rw [chooseStrategy]
  split
  · rfl
  · rfl

/-- The plan for an intent whose header asks for a number of utterances. -/
theorem Generator.planAt_samples (gen : Generator) (v : Fin gen.graph.size) (name : String)
    (n test : Nat) (request : Request) :
    (gen.planAt v name (some (.samples n, test)) request).requested = some n ∧
      (gen.planAt v name (some (.samples n, test)) request).split
        = Split.fixed ((gen.planAt v name (some (.samples n, test)) request).strategy.expected
            (gen.planAt v name (some (.samples n, test)) request).target) test :=
  ⟨requested_chooseStrategy_samples gen.settings.exhaustiveCeiling (gen.graph.count v) n, rfl⟩

/-- In the graph of a sound grammar every number in a header can be read. -/
theorem Grammar.Sound.exists_asks (hg : g.Sound) (h : Graph.build g ceiling = .ok graph)
    (v : Fin graph.size) {name : String} (hname : name ∈ countArguments) :
    ∃ count, (graph.node v).Asks name count := by
  obtain ⟨d, hd, hdv⟩ := exists_left_of_forall₂ (mirrors_of_build h) (mem_toList_get _ v)
  have harguments : (graph.node v).argument? name = d.arguments.lookup name := by
    rw [← hdv.arguments]
    rfl
  rcases hvalue : d.arguments.lookup name with _ | value
  · exact ⟨0, .inl ⟨harguments.trans hvalue, rfl⟩⟩
  · have hmem : (name, value) ∈ d.arguments := by
      obtain ⟨before, behind, hsplit, -⟩ := List.lookup_eq_some_iff.mp hvalue
      rw [hsplit]
      exact List.mem_append_right before List.mem_cons_self
    obtain ⟨-, n, hn⟩ := (hg.definitions d hd).counts name hname value hmem
    exact ⟨n, .inr ⟨value, harguments.trans hvalue, hn⟩⟩

end Build

/-! ### The theorem -/

section Compile

variable {source : String} {settings : Settings} {g : Grammar}

/-- With settings that are refused nothing is read. -/
theorem compile_of_fault {bad : BadSetting} (h : settings.fault? = some bad) :
    compile source settings = .error (.settingsInvalid bad) := by
  rw [compile, h]
  rfl

theorem compile_of_read (h : settings.fault? = none) (hread : Grammar.read source = .ok g) :
    compile source settings = Graph.build g settings.exhaustiveCeiling := by
  rw [compile, h, hread]
  rfl

theorem compile_of_read_eq_error {fault : SourceError} (h : settings.fault? = none)
    (hread : Grammar.read source = .error fault) :
    compile source settings = .error (.source fault) := by
  rw [compile, h, hread]
  rfl

end Compile

/-- **What reading guarantees.**  Every grammar that is read is sound.  So no text, whatever the
settings, is refused for a definition without sentences or for a reference to an intent once it has
been read; a key is looked up alike in the grammar and in its graph; and if the header of an intent
asks for a number of utterances, its plan is for the numbers that are read there, unless their sum
does not fit and the program stops. -/
theorem readings_are_sound (source : String) :
    (∀ g, Grammar.read source = .ok g → g.Sound) ∧
    ∀ settings : Settings,
      (∀ k, compile source settings ≠ .error (.emptyDefinition k)) ∧
      (∀ k l, compile source settings ≠ .error (.intentReference k l)) ∧
      ∀ graph, compile source settings = .ok graph →
        ∃ g, Grammar.read source = .ok g ∧ graph.network.Mirrors g ∧
          (∀ key, g.find? key = (graph.find? key).bind fun v => g.definitions[v.val]?) ∧
          ∀ gen : Generator, gen.graph = graph → ∀ name v, gen.graph.intent? name = some v →
            (∃ count ∈ countArguments, ((gen.graph.node v).argument? count).isSome) →
            ∃ training testing, (gen.graph.node v).Asks "training" training ∧
              (gen.graph.node v).Asks "testing" testing ∧
              ∀ request,
                (training + testing ≤ maxCount → ∃ plan, gen.plan name request = .ok plan ∧
                  plan.intent = v ∧ plan.requested = some (training + testing) ∧
                  plan.split = Split.fixed (plan.strategy.expected plan.target) testing) ∧
                (maxCount < training + testing →
                  gen.plan name request = .error (.panic .addition)) := by
  refine ⟨fun g => sound_of_read, fun settings => ?_⟩
  rcases hfault : settings.fault? with _ | bad
  · rcases hread : Grammar.read source with fault | g
    · rw [compile_of_read_eq_error hfault hread]
      exact ⟨nofun, nofun, nofun⟩
    · have hg := sound_of_read hread
      rw [compile_of_read hfault hread]
      refine ⟨hg.build_ne_emptyDefinition, hg.build_ne_intentReference, fun graph hbuild => ?_⟩
      refine ⟨g, rfl, mirrors_of_build hbuild, hg.distinct.find?_eq hbuild, ?_⟩
      rintro gen rfl name v hintent hsome
      have hfirst : "training" ∈ countArguments := List.mem_cons_self
      have hsecond : "testing" ∈ countArguments := List.mem_cons_of_mem _ List.mem_cons_self
      obtain ⟨training, htraining⟩ := hg.exists_asks hbuild v hfirst
      obtain ⟨testing, htesting⟩ := hg.exists_asks hbuild v hsecond
      refine ⟨training, testing, htraining, htesting, fun request => ⟨fun hfits => ?_, ?_⟩⟩
      · have hown := Node.ownAmount?_of_asks htraining htesting hsome hfits
        exact ⟨_, plan_eq_ok_iff.mpr ⟨v, _, hintent, hown, rfl⟩, rfl,
          gen.planAt_samples v name (training + testing) testing request⟩
      · intro hexcess
        refine plan_of_not_fits hintent (fun hfits => ?_) request
        have hle := (Node.quotasFit_of_asks htraining htesting).mp hfits
        omega
  · rw [compile_of_fault hfault]
    exact ⟨nofun, nofun, nofun⟩

/-- The greetings as they are written down. -/
def Grammar.greetingsText : String :=
  "%[greet]('training': 2, 'testing': '1')\n hello ?[there]\n hello\n"

/-- The generator for the greetings, with the hash of their text. -/
def Generator.greetingsFromText : Generator :=
  { Generator.greetings with
    graph := { Generator.greetings.graph with
      contentHash := Grammar.contentHash ⟨[], Grammar.greetingsText⟩ } }

set_option maxRecDepth 4000 in
theorem read_greetingsText : Grammar.read Grammar.greetingsText
    = .ok ⟨Grammar.greetings.definitions, Grammar.greetingsText⟩ := by
  cbv

theorem build_greetingsText :
    Graph.build ⟨Grammar.greetings.definitions, Grammar.greetingsText⟩ 10000
      = .ok Generator.greetingsFromText.graph := by
  have hcheck : Network.greetings.check = .ok () := rfl
  exact build_eq_ok_iff.mpr ⟨_, link_greetings, _, probabilities_greetings, hcheck, rfl⟩

/-- From their text the greetings are read and planned for three utterances, one of them for
testing. -/
theorem readings_of_greetings : ∃ g plan, Grammar.read Grammar.greetingsText = .ok g ∧
    g.definitions.flatMap Definition.lines = [1, 2, 3] ∧ g.Sound ∧
    compile Grammar.greetingsText {} = .ok Generator.greetingsFromText.graph ∧
    Generator.greetingsFromText.plan "greet" {} = .ok plan ∧
    plan.requested = some (2 + 1) ∧
    plan.split = Split.fixed (plan.strategy.expected plan.target) 1 := by
  have hfault : ({} : Settings).fault? = none := by decide +kernel
  have hcompile : compile Grammar.greetingsText {} = .ok Generator.greetingsFromText.graph :=
    (compile_of_read hfault read_greetingsText).trans build_greetingsText
  obtain ⟨hsound, hlater⟩ := readings_are_sound Grammar.greetingsText
  obtain ⟨-, -, hgraph⟩ := hlater {}
  obtain ⟨g, hg, -, -, hplans⟩ := hgraph _ hcompile
  obtain rfl : _ = g := Except.ok.inj (read_greetingsText.symm.trans hg)
  have hintent : Generator.greetingsFromText.graph.intent? "greet" = some (0 : Fin 1) := rfl
  obtain ⟨training, testing, htraining, htesting, hplan⟩ :=
    hplans Generator.greetingsFromText rfl "greet" _ hintent ⟨"testing", by decide, by decide⟩
  -- both numbers stand in the header
  have hone : testing = 1 := htesting.getD_eq.symm
  have htwo : training = 2 := htraining.getD_eq.symm
  obtain ⟨hfits, -⟩ := hplan {}
  rw [hone, htwo] at hfits
  obtain ⟨plan, hplan, -, hrequested, hsplit⟩ := hfits (by decide)
  exact ⟨_, plan, hg, rfl, hsound _ hg, hcompile, hplan, hrequested, hsplit⟩

end IntentGrammar
