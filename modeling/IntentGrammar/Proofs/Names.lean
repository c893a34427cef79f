import IntentGrammar.Proofs.Culprits
import IntentGrammar.Proofs.Headers
import IntentGrammar.Proofs.JsonReading
import IntentGrammar.Proofs.Layout

/-!
# Names tell definitions apart

In a message a definition is shown as it is written: its sigil and, in brackets, its name and its
variation.  Nothing can be mistaken there.  The parts of every key that is read are tidy, whether it
stands in a header or in a sentence (`Grammar.Sound.key`), so the text of the key is read back as
the key, as a header and as a sentence (`Key.Sound.readsBack`).

What is in front of the brackets of a message, between them and behind them is plain text, numbers
included (`Error.shows_named`).  So a message shows just the keys that the refusal names
(`Shows.unique`), and each is that of one definition or is known to be missing
(**`key_texts_are_faithful`**).
-/

namespace IntentGrammar

open Text

/-! ### Sound keys -/

/-- What is known of the keys in a grammar: their parts are tidy, and an intent has no
variation. -/
structure Key.Sound (k : Key) : Prop where
  tidy : TidyParts k.name k.variation
  intent : k.kind = .intent → k.variation = none

/-- What stands between the brackets of a key. -/
def Key.label (k : Key) : List Char :=
  match k.variation with
  | some v => k.name.toList ++ '#' :: v.toList
  | none => k.name.toList

theorem Key.toList_text (k : Key) : k.text.toList = k.kind.sigil :: '[' :: (k.label ++ [']']) := by
  obtain ⟨kind, name, _ | v⟩ := k
  · simp [text, label]
  · simp [text, label]

/-- The reference to a key that cannot be left out. -/
def Key.referenceAt (k : Key) (column : Nat) : Reference :=
  ⟨k.kind, k.name, k.variation, false, column⟩

/-- What a key starts with starts no weight and no comment, ends no line and indents none. -/
theorem Kind.sigil_ne (kind : Kind) :
    kind.sigil ≠ '*' ∧ kind.sigil ≠ '#' ∧ kind.sigil ≠ '/' ∧ kind.sigil ≠ '\n' ∧
      isIndent kind.sigil = false := by
  cases kind <;> decide

theorem Kind.isPlain_sigil (kind : Kind) : isPlain kind.sigil = true := by cases kind <;> rfl

theorem Kind.sigil_injective : Function.Injective Kind.sigil := by
  intro kind kind' h
  cases kind <;> cases kind' <;> first | rfl | cases h

theorem Tidy.toList_ne_nil {name : String} (h : Tidy name) : name.toList ≠ [] :=
  String.toList_eq_nil_iff.ne.mpr h.ne_empty

theorem Tidy.trimmed_toList {name : String} (h : Tidy name) : Trimmed name.toList :=
  h.trimmed ▸ trimmed_trim name.toList

/-- Texts that are trimmed are so with something between them. -/
theorem Trimmed.append {xs ys : List Char} (hxs : Trimmed xs) (hys : Trimmed ys)
    (hne : xs ≠ []) (hne' : ys ≠ []) (c : Char) : Trimmed (xs ++ c :: ys) := by
  obtain ⟨x, xs, rfl⟩ := List.exists_cons_of_ne_nil hne
  refine ⟨fun d hd => hxs.1 d hd, fun d hd => hys.2 d ?_⟩
  rwa [List.getLast?_append_cons, List.getLast?_cons_of_ne_nil hne'] at hd

namespace Key.Sound

variable {k : Key}

theorem notMem_label (h : k.Sound) {c : Char} (hc : c ∈ Label.reserved) (hne : c ≠ '#') :
    c ∉ k.label := by
  obtain ⟨kind, name, _ | v⟩ := k
  · exact h.tidy.1.free c hc
  · rw [label, List.mem_append, List.mem_cons, not_or, not_or]
    exact ⟨h.tidy.1.free c hc, hne, (h.tidy.2 v rfl).free c hc⟩

theorem plain_label (h : k.Sound) : Plain k.label :=
  plain_of_notMem (h.notMem_label (by decide) (by decide)) (h.notMem_label (by decide) (by decide))

theorem trimmed_label (h : k.Sound) : Trimmed k.label := by
  obtain ⟨kind, name, _ | v⟩ := k
  · exact h.tidy.1.trimmed_toList
  · exact h.tidy.1.trimmed_toList.append (h.tidy.2 v rfl).trimmed_toList h.tidy.1.toList_ne_nil
      (h.tidy.2 v rfl).toList_ne_nil '#'

/-- A key has a name and perhaps, behind the only `#`, a variation. -/
theorem split_label (h : k.Sound) (optional : Bool) :
    Label.split k.label optional = .ok ⟨k.name, k.variation, optional⟩ := by
  obtain ⟨kind, name, variation⟩ := k
  have hfree (c : Char) (hc : c ∈ name.toList) : (c != '#') = true := by
    have hne : c ≠ '#' := by
      rintro rfl
      exact h.tidy.1.free '#' (by decide) hc
    simpa using hne
  rcases variation with _ | v
  · have hdrop : name.toList.dropWhile (· != '#') = [] := List.dropWhile_eq_nil_iff.mpr hfree
    have hsome : name.toList.isEmpty = false :=
      List.isEmpty_eq_false_iff.mpr h.tidy.1.toList_ne_nil
    simp only [label, Label.split, hdrop, hsome, Bool.false_eq_true, if_false, String.ofList_toList]
  · have hv : Tidy v := h.tidy.2 v rfl
    have hdrop : (name.toList ++ '#' :: v.toList).dropWhile (· != '#') = '#' :: v.toList := by
      rw [List.dropWhile_append_of_pos hfree, List.dropWhile_cons_of_neg (by decide)]
    have htake : (name.toList ++ '#' :: v.toList).takeWhile (· != '#') = name.toList := by
      rw [List.takeWhile_append_of_pos hfree, List.takeWhile_cons_of_neg (by decide),
        List.append_nil]
    have hsome : name.toList.isEmpty = false :=
      List.isEmpty_eq_false_iff.mpr h.tidy.1.toList_ne_nil
    have hsome' : v.toList.isEmpty = false := List.isEmpty_eq_false_iff.mpr hv.toList_ne_nil
    have hhash : '#' ∉ v.toList := hv.free '#' (by decide)
    simp only [label, Label.split, hdrop, htake, h.tidy.1.trimmed, hv.trimmed, hsome, hsome',
      hhash, Bool.false_eq_true, if_false, String.ofList_toList]

/-- **What stands between the brackets of a key** is read as its parts. -/
theorem read_label (h : k.Sound) : Label.read k.label = .ok ⟨k.name, k.variation, false⟩ := by
  have hmark : '?' ∉ k.label := h.notMem_label (by decide) (by decide)
  have hlast : (k.label.getLast? == some '?') = false := by
    rw [beq_eq_false_iff_ne]
    exact fun hlast => hmark (List.mem_of_getLast? hlast)
  simp only [Label.read, h.trimmed_label.trim_eq, hlast, hmark, Bool.false_eq_true, if_false]
  exact h.split_label false

theorem line_text (h : k.Sound) : '\n' ∉ k.text.toList := by
  have hlabel : '\n' ∉ k.label := h.notMem_label (by decide) (by decide)
  obtain ⟨-, -, -, hsigil, -⟩ := k.kind.sigil_ne
  simp [toList_text, hlabel, hsigil.symm]

/-- **The text of a key** is a header without arguments. -/
theorem headerText (h : k.Sound) : HeaderText k.text.toList k [] := by
  have hnothing : Gap [] := List.forall_mem_nil _
  have hheader : HeaderText (k.kind.sigil :: '[' :: (k.label ++ ']' :: ([] ++ ([] ++ [])))) k [] :=
    .mk h.plain_label h.read_label rfl h.intent hnothing (.inl ⟨rfl, rfl⟩) hnothing
  rw [toList_text]
  exact hheader

/-- **The text of a key** comprises a reference to it. -/
theorem comprises (h : k.Sound) (hkind : k.kind ≠ .intent) (column : Nat) :
    Comprises column k.text.toList [.reference (k.referenceAt column)] := by
  have hnothing : Plain [] := List.forall_mem_nil _
  have hgroup (mark : Mark) (hsigil : k.kind.sigil = mark.sigil)
      (hmeans : mark.Means column k.label (.reference (k.referenceAt column))) :
      Comprises column k.text.toList [.reference (k.referenceAt column)] := by
    have hcomprises : Comprises column ([] ++ (mark.group k.label ++ []))
        (stretch [] ++ .reference (k.referenceAt column) :: stretch []) :=
      .group hnothing h.plain_label hmeans (.last hnothing)
    rw [List.append_nil] at hcomprises
    rw [toList_text, hsigil]
    exact hcomprises
  rw [referenceAt] at hgroup ⊢
  rcases hk : k.kind with _ | _ | _
  · exact absurd hk hkind
  · rw [hk] at hgroup
    exact hgroup .slot rfl ⟨_, h.read_label, rfl⟩
  · rw [hk] at hgroup
    exact hgroup .alias rfl ⟨_, h.read_label, rfl⟩

/-- A sentence that is the text of a key consists of one reference to it. -/
theorem readSentence (h : k.Sound) (hkind : k.kind ≠ .intent) (number : Nat) {width : Nat}
    (hwidth : k.text.toList.length ≤ width) :
    IntentGrammar.readSentence number width k.text.toList
      = .ok (⟨[.reference (k.referenceAt (columnOf width k.text.toList.length))], none, number⟩,
          []) := by
  obtain ⟨ps, hspells, hmake⟩ := (comprises_iff hwidth).mp (h.comprises hkind _)
  have hweightless (inner : List Char) : k.text.toList ≠ '*' :: '[' :: inner := by
    intro heq
    obtain ⟨hsigil, -⟩ := k.kind.sigil_ne
    rw [toList_text] at heq
    exact hsigil (List.cons.inj heq).1
  exact readSentence_eq_ok_iff.mpr ⟨rfl, rfl, List.cons_ne_nil _ _, [], _, ps, rfl,
    .absent hweightless, hspells, hmake⟩

end Key.Sound

theorem Key.not_startsComment (k : Key) : startsComment k.text.toList = false := by
  obtain ⟨-, -, hsigil, -⟩ := k.kind.sigil_ne
  rw [toList_text, startsComment, List.isPrefixOf_cons_cons]
  simp [hsigil.symm]

/-- The text of a key reads as the key.  It is one line; alone it is the header of a definition
without arguments, and behind white space, unless the key is that of an intent, it is a sentence
that consists of one reference to the key, which cannot be left out. -/
structure Key.ReadsBack (k : Key) : Prop where
  lines : linesOf k.text.toList = [⟨1, k.text.toList⟩]
  header : readHeader k.text.toList = .ok (k, [])
  definition (number : Nat) : (Line.mk number k.text.toList).form = .header k.text.toList ∧
    (Line.mk number k.text.toList).readHeader k.text.toList = .ok ⟨k, [], [], number⟩
  sentence (number : Nat) (indent : List Char) : k.kind ≠ .intent → Gap indent → indent ≠ [] →
    (Line.mk number (indent ++ k.text.toList)).form = .sentence k.text.toList ∧
      ∃ r : Reference, (Line.mk number (indent ++ k.text.toList)).readSentence k.text.toList
          = .ok ⟨[.reference r], none, number⟩ ∧ r.optional = false ∧ r.target = k

/-- **The text of a sound key reads as the key.** -/
theorem Key.Sound.readsBack {k : Key} (h : k.Sound) : k.ReadsBack where
  lines := by
    rw [linesOf_of_notMem h.line_text, toList_text, ← List.cons_append, ← List.cons_append,
      trimEnd_append_cons (by decide)]
    rfl
  header := h.headerText.read
  definition number := by
    have hread : IntentGrammar.readHeader k.text.toList = .ok (k, []) := h.headerText.read
    refine ⟨?_, ?_⟩
    · have hcomment := k.not_startsComment
      rw [toList_text] at hcomment ⊢
      simp only [Line.form, k.kind.sigil_ne, hcomment]
      simp
    · simp only [Line.readHeader, hread]
      rfl
  sentence number indent hkind hindent hne := by
    obtain ⟨c, indent, rfl⟩ := List.exists_cons_of_ne_nil hne
    have hskip : skipIndent (c :: indent ++ k.text.toList) = k.text.toList := by
      obtain ⟨-, -, -, -, hsigil⟩ := k.kind.sigil_ne
      apply hindent.skip
      rw [toList_text]
      rintro d ⟨⟩
      exact hsigil
    have hwidth : k.text.toList.length ≤ (c :: indent ++ k.text.toList).length := by
      rw [List.length_append]
      exact Nat.le_add_left _ _
    have hread : (Line.mk number (c :: indent ++ k.text.toList)).readSentence k.text.toList
        = .ok ⟨[.reference (k.referenceAt (columnOf (c :: indent ++ k.text.toList).length
          k.text.toList.length))], none, number⟩ := by
      simp only [Line.readSentence, h.readSentence hkind number hwidth]
      rfl
    refine ⟨?_, _, hread, rfl, rfl⟩
    rw [List.cons_append] at hskip ⊢
    simp only [Line.form, hindent c List.mem_cons_self, hskip, k.not_startsComment]
    simp

/-! ### Texts that show keys -/

/-- A text shows keys, in this order, if nothing else in it is in brackets. -/
inductive Shows : List Char → List Key → Prop
  | nothing {text : List Char} : Plain text → Shows text []
  | key {text rest : List Char} {k : Key} {ks : List Key} :
      Plain text → k.Sound → Shows rest ks → Shows (text ++ (k.text.toList ++ rest)) (k :: ks)

/-- Behind plain text the first key can be told, and what follows it. -/
theorem Key.Sound.eq_of_append_eq {k k' : Key} {text text' rest rest' : List Char}
    (hk : k.Sound) (hk' : k'.Sound) (htext : Plain text) (htext' : Plain text')
    (h : text ++ (k.text.toList ++ rest) = text' ++ (k'.text.toList ++ rest')) :
    k = k' ∧ rest = rest' := by
  have hchars (text rest : List Char) (k : Key) : text ++ (k.text.toList ++ rest)
      = (text ++ [k.kind.sigil]) ++ '[' :: (k.label ++ ']' :: rest) := by
    simp [toList_text]
  have hfront {text : List Char} (htext : Plain text) (kind : Kind) :
      Plain (text ++ [kind.sigil]) :=
    plain_append.mpr ⟨htext, List.forall_mem_singleton.mpr kind.isPlain_sigil⟩
  rw [hchars, hchars] at h
  obtain ⟨hsigils, hlabels⟩ := eq_of_plain_append rfl (hfront htext _) (hfront htext' _) h
  have hkind : k.kind = k'.kind :=
    Kind.sigil_injective (List.singleton_inj.mp (List.append_inj_right' hsigils rfl))
  obtain ⟨hlabel, rfl⟩ := body_eq_of_plain hk.plain_label hk'.plain_label hlabels
  -- the same characters are read as the same parts
  have hread := hk.read_label
  rw [hlabel, hk'.read_label] at hread
  cases k
  cases k'
  cases hkind
  cases hread
  exact ⟨rfl, rfl⟩

/-- **A text shows its keys only.** -/
theorem Shows.unique {cs : List Char} {ks ks' : List Key} (h : Shows cs ks) (h' : Shows cs ks') :
    ks = ks' := by
  induction h generalizing ks' with
  | nothing hplain =>
    cases h' with
    | nothing => rfl
    | @key text rest k ks =>
      -- the key would bring a bracket into plain text
      exact absurd (by simp [Key.toList_text]) (hplain.notMem (c := '[') rfl)
  | @key text rest k ks htext hk _ ih =>
    generalize hcs : text ++ (k.text.toList ++ rest) = cs at h'
    cases h' with
    | nothing hplain =>
      rw [← hcs] at hplain
      exact absurd (by simp [Key.toList_text]) (hplain.notMem (c := '[') rfl)
    | @key text' rest' k' ks' htext' hk' hrest' =>
      obtain ⟨rfl, rfl⟩ := hk.eq_of_append_eq hk' htext htext' hcs
      rw [ih hrest']

theorem Shows.first {rest : List Char} {k : Key} {ks : List Key} (hk : k.Sound)
    (hrest : Shows rest ks) : Shows (k.text.toList ++ rest) (k :: ks) :=
  Shows.key (List.forall_mem_nil _) hk hrest

theorem Shows.last {text : List Char} {k : Key} (htext : Plain text) (hk : k.Sound) :
    Shows (text ++ k.text.toList) [k] := by
  have hshows := Shows.key htext hk (.nothing (List.forall_mem_nil _))
  rwa [List.append_nil] at hshows

/-- A key that is shown stands in the text. -/
theorem Shows.isInfix {cs : List Char} {ks : List Key} (h : Shows cs ks) {k : Key} (hk : k ∈ ks) :
    k.text.toList <:+: cs := by
  induction h with
  | nothing => cases hk
  | @key text rest k' ks _ _ _ ih =>
    rcases List.mem_cons.mp hk with rfl | hk
    · exact ⟨text, rest, List.append_assoc _ _ _⟩
    · exact ((ih hk).trans (List.suffix_append _ _).isInfix).trans (List.suffix_append _ _).isInfix

/-- **Different keys have different texts.** -/
theorem Key.Sound.eq_of_text_eq {k k' : Key} (h : k.Sound) (h' : k'.Sound)
    (htext : k.text = k'.text) : k = k' := by
  have hread := h.readsBack.header
  rw [htext, h'.readsBack.header] at hread
  cases hread
  rfl

/-! ### Messages -/

namespace Decimal

theorem isPlain_of_isDigit {c : Char} (h : c.isDigit = true) : isPlain c = true := by
  refine isPlain_iff.mpr ⟨?_, ?_⟩ <;> (rintro rfl; cases h)

theorem Numeral.plain_text (n : Numeral) : Plain n.text.toList := by
  have hdigits : Plain (Nat.toDigits 10 n.digits) := fun c hc =>
    isPlain_of_isDigit (Json.isDigit_of_mem_toDigits hc)
  have hzeros (k : Nat) : Plain (List.replicate k '0') := by
    intro c hc
    rw [(List.mem_replicate.mp hc).2]
    rfl
  rw [text]
  simp only
  split
  · rw [String.toList_ofList]
    exact plain_append.mpr ⟨hdigits, hzeros _⟩
  · rw [String.toList_ofList]
    have hpadded := plain_append.mpr ⟨hzeros ((-n.exponent).toNat + 1
      - (Nat.toDigits 10 n.digits).length), hdigits⟩
    refine plain_append.mpr ⟨fun c hc => hpadded c (List.mem_of_mem_take hc),
      plain_cons.mpr ⟨rfl, fun c hc => hpadded c (List.mem_of_mem_drop hc)⟩⟩

/-- No number has a bracket in it. -/
theorem plain_text (x : Float) : Plain (text x).toList := by
  have hsign : Plain (if signBit ≤ x.toBits.toNat then "-" else "").toList := by
    split <;> decide
  have hsigned {s : String} (hs : Plain s.toList) :
      Plain ((if signBit ≤ x.toBits.toNat then "-" else "") ++ s).toList := by
    rw [String.toList_append]
    exact plain_append.mpr ⟨hsign, hs⟩
  unfold text
  simp only
  split
  · decide
  · split
    · exact hsigned (by decide)
    · split
      · exact hsigned (by decide)
      · exact hsigned (Numeral.plain_text _)

end Decimal

/-- The keys that an error names, in the order of its message. -/
def Error.named : Error → List Key
  | weightOverflow definition _ => [definition]
  | emptyDefinition definition => [definition]
  | cyclicDefinition cycle => cycle
  | undefinedReference within missing => [within, missing]
  | intentReference within intent => [within, intent]
  | nestedSlot slot nested => [slot, nested]
  | _ => []

theorem shows_intercalate {ks : List Key} (hks : ∀ k ∈ ks, k.Sound) {front : List Char}
    (hfront : Plain front) :
    Shows (front ++ (" -> ".intercalate (ks.map Key.text)).toList) ks := by
  induction ks generalizing front with
  | nil =>
    rw [List.map_nil, String.intercalate_nil, String.toList_empty, List.append_nil]
    exact .nothing hfront
  | cons k ks ih =>
    obtain ⟨hk, hks⟩ := List.forall_mem_cons.mp hks
    rcases ks with _ | ⟨k', ks⟩
    · exact .last hfront hk
    · have harrow : Plain " -> ".toList := by decide
      rw [List.map_cons, List.map_cons, String.intercalate_cons_cons, String.toList_append,
        String.toList_append, List.append_assoc, ← List.map_cons (f := Key.text)]
      exact .key hfront hk (ih hks harrow)

/-- **The message of a refusal** shows the keys that it names. -/
theorem Error.shows_named {e : Error} {check : Check} (he : e.check? = some check)
    (hkeys : ∀ k ∈ e.named, k.Sound) : Shows e.message.toList e.named := by
  cases e with
  | weightOverflow definition total =>
    have hmessage : (weightOverflow definition total).message = "weights of " ++ definition.text
        ++ " add up to " ++ Decimal.text total ++ "%, more than 100%" := by
      -- `rfl` would go on to compute the text of the number
      show toString "weights of " ++ toString definition.text ++ toString " add up to "
        ++ toString (Decimal.text total) ++ toString "%, more than 100%" = _
      simp only [toString]
    rw [hmessage]
    simp only [String.toList_append, List.append_assoc]
    exact .key (by decide) (hkeys _ List.mem_cons_self) (.nothing (plain_append.mpr
      ⟨by decide, plain_append.mpr ⟨Decimal.plain_text total, by decide⟩⟩))
  | emptyDefinition definition =>
    have hmessage : (emptyDefinition definition).message
        = definition.text ++ " has no sentences" := rfl
    rw [hmessage, String.toList_append]
    exact .first (hkeys _ List.mem_cons_self) (.nothing (by decide))
  | cyclicDefinition cycle =>
    rw [message_cyclicDefinition, String.toList_append]
    exact shows_intercalate hkeys (by decide)
  | undefinedReference within missing =>
    have hwithin : within.Sound := hkeys _ List.mem_cons_self
    have hmissing : missing.Sound := hkeys _ (List.mem_cons_of_mem _ List.mem_cons_self)
    have hmessage : (undefinedReference within missing).message
        = within.text ++ (" references undefined " ++ missing.text) := String.append_assoc ..
    rw [hmessage, String.toList_append, String.toList_append]
    exact .first hwithin (.last (by decide) hmissing)
  | intentReference within intent =>
    have hwithin : within.Sound := hkeys _ List.mem_cons_self
    have hintent : intent.Sound := hkeys _ (List.mem_cons_of_mem _ List.mem_cons_self)
    have hmessage : (intentReference within intent).message = within.text
        ++ " references intent " ++ intent.text ++ "; intents cannot be referenced" := rfl
    rw [hmessage]
    simp only [String.toList_append, List.append_assoc]
    exact .first hwithin (.key (by decide) hintent (.nothing (by decide)))
  | nestedSlot slot nested =>
    have hslot : slot.Sound := hkeys _ List.mem_cons_self
    have hnested : nested.Sound := hkeys _ (List.mem_cons_of_mem _ List.mem_cons_self)
    have hmessage : (nestedSlot slot nested).message
        = "slot " ++ slot.text ++ " cannot contain slot " ++ nested.text := rfl
    rw [hmessage]
    simp only [String.toList_append, List.append_assoc]
    exact .key (by decide) hslot (.last (by decide) hnested)
  | _ => cases he

/-! ### Keys in a grammar -/

section Grammars

variable {g : Grammar} {k : Key}

/-- A grammar speaks of a key: it is that of a definition, or a reference asks for it. -/
def Grammar.Mentions (g : Grammar) (k : Key) : Prop :=
  (∃ d ∈ g.definitions, d.key = k) ∨ ∃ d ∈ g.definitions, ∃ r ∈ d.references, r.target = k

/-- **Every key that a sound grammar speaks of** is sound. -/
theorem Grammar.Sound.key (hg : g.Sound) (hk : g.Mentions k) : k.Sound := by
  rcases hk with ⟨d, hd, rfl⟩ | ⟨d, hd, r, hr, rfl⟩
  · have hheader := (hg.definitions d hd).header
    exact ⟨hheader.tidy, hheader.intent⟩
  · obtain ⟨a, ha, hr⟩ := List.mem_flatMap.mp hr
    obtain ⟨x, hx, hxr⟩ := List.mem_filterMap.mp hr
    have hsound := ((hg.definitions d hd).alternatives a ha).elements x hx
    cases x with
    | literal text optional => cases hxr
    | reference r' =>
      cases hxr
      exact ⟨hsound.2, fun hintent => absurd hintent hsound.1⟩

/-- The definition and the reference that linking blames. -/
theorem Grammar.FirstFaulty.mem {d : Definition} {r : Reference} (h : g.FirstFaulty d r) :
    d ∈ g.definitions ∧ r ∈ d.references := by
  obtain ⟨-, before, after, hsplit, -⟩ := h
  have hmem : (d, r) ∈ g.references := by
    rw [hsplit]
    exact List.mem_append_right _ List.mem_cons_self
  obtain ⟨d', hd', hr⟩ := List.mem_flatMap.mp hmem
  obtain ⟨r', hr', heq⟩ := List.mem_map.mp hr
  cases heq
  exact ⟨hd', hr'⟩

/-- A refusal for weights names a definition. -/
theorem exists_key_of_probabilities {ceiling : Nat} {e : Error}
    {net : Network g.definitions.length} (hnet : link g.definitions = .ok net)
    (h : net.probabilities ceiling = .error e) : ∃ d ∈ g.definitions, e.named = [d.key] := by
  obtain ⟨⟨v, tally⟩, hmem, hv⟩ := exists_of_mapM_eq_error (vector_mapM_eq_error_iff.mp h)
  obtain ⟨i, hi⟩ := exists_get_of_mem_toList hmem
  rw [get_zip_counts] at hi
  cases hi
  refine ⟨g.definitions.get i, List.get_mem _ _, ?_⟩
  rw [← ((mirrors_of_link hnet).node_get i).key]
  obtain rfl | ⟨total, rfl⟩ := eq_of_node_probabilities_eq_error hv
  · rfl
  · rfl

/-- **What a refusal names** is defined, unless it is what a reference asks for in vain. -/
theorem Grammar.Sound.of_mem_named (hg : g.Sound) {ceiling : Nat} {e : Error}
    (hbuild : Graph.build g ceiling = .error e) (hk : k ∈ e.named) :
    (∃ d ∈ g.definitions, d.key = k) ∨ (∃ d ∈ g.definitions, ∃ r ∈ d.references, r.target = k) ∧
      (∀ d ∈ g.definitions, d.key ≠ k) ∧ ∃ within, e = .undefinedReference within k := by
  rcases build_eq_error_iff.mp hbuild with hlink | ⟨net, hnet, hps | ⟨ps, -, hcheck⟩⟩
  · obtain ⟨d, r, hfirst, hfault⟩ := link_eq_error_iff.mp hlink
    obtain ⟨hd, hr⟩ := hfirst.mem
    obtain ⟨r', hrr', ⟨-, rfl⟩ | ⟨-, hnone, rfl⟩⟩ := linkElement_eq_error_iff.mp hfault
    · exact absurd hbuild (hg.build_ne_intentReference _ _)
    · -- the reference stands in a definition, and what it asks for in none
      cases hrr'
      rcases List.mem_cons.mp hk with rfl | hk
      · exact .inl ⟨d, hd, rfl⟩
      · obtain rfl := List.mem_singleton.mp hk
        exact .inr ⟨⟨d, hd, r, hr, rfl⟩, hnone, _, rfl⟩
  · obtain ⟨d, hd, hnamed⟩ := exists_key_of_probabilities hnet hps
    rw [hnamed, List.mem_singleton] at hk
    exact .inl ⟨d, hd, hk.symm⟩
  · -- all that the searches go through is defined
    rcases of_check_eq_error hcheck with ⟨⟨cycle, rfl⟩, -⟩ | ⟨⟨slot, nested, rfl⟩, -⟩
    · obtain ⟨ds, hround, rfl⟩ := exists_goesRound_of_build hg.distinct hbuild
      obtain ⟨d, hd, rfl⟩ := List.mem_map.mp hk
      exact .inl ⟨d, hround.defined d hd, rfl⟩
    · have hnesting := firstNesting_of_build hg.distinct hbuild
      rcases List.mem_cons.mp hk with rfl | hk
      · obtain ⟨before, d, after, hsplit, hkey, -⟩ := hnesting.first
        refine .inl ⟨d, ?_, hkey⟩
        rw [hsplit]
        exact List.mem_append_right _ List.mem_cons_self
      · obtain rfl := List.mem_singleton.mp hk
        exact .inl hnesting.defined

theorem Grammar.Sound.mentions_of_mem_named (hg : g.Sound) {ceiling : Nat} {e : Error}
    (hbuild : Graph.build g ceiling = .error e) (hk : k ∈ e.named) : g.Mentions k := by
  rcases hg.of_mem_named hbuild hk with hdefined | ⟨hasked, -⟩
  · exact .inl hdefined
  · exact .inr hasked

/-- The message of a refusal shows what it names. -/
theorem Grammar.Sound.shows_message (hg : g.Sound) {ceiling : Nat} {e : Error}
    (hbuild : Graph.build g ceiling = .error e) : Shows e.message.toList e.named := by
  obtain ⟨check, hcheck, -⟩ := check_of_build_eq_error hg.distinct hbuild
  exact Error.shows_named hcheck fun k hk => hg.key (hg.mentions_of_mem_named hbuild hk)

/-- A text belongs to one definition at most. -/
theorem Grammar.Sound.existsUnique (hg : g.Sound) {d : Definition} (hd : d ∈ g.definitions) :
    ∃! d' ∈ g.definitions, d'.key.text = d.key.text := by
  refine ⟨d, ⟨hd, rfl⟩, ?_⟩
  rintro d' ⟨hd', htext⟩
  exact hg.distinct.eq_of_key hd' hd
    ((hg.key (.inl ⟨d', hd', rfl⟩)).eq_of_text_eq (hg.key (.inl ⟨d, hd, rfl⟩)) htext)

end Grammars

/-! ### The theorem -/

/-- **The texts of keys are faithful.**  The text of a key that a grammar defines reads as the key:
as a header it defines the key, and as a sentence it refers to it.  Keys that texts speak of, in
definitions or in references, have different texts if they are different.  A refusal shows every key
that it names, and the text that is shown is that of one definition, or, if a reference asks for it
in vain, of none; and whatever is refused with the same message is refused for the same keys. -/
theorem key_texts_are_faithful {source : String} {g : Grammar}
    (hread : Grammar.read source = .ok g) :
    (∀ d ∈ g.definitions, d.key.ReadsBack) ∧
    (∀ source' g', Grammar.read source' = .ok g' → ∀ k k', g.Mentions k → g'.Mentions k' →
      k.text = k'.text → k = k') ∧
    ∀ ceiling e, Graph.build g ceiling = .error e →
      (∀ k ∈ e.named, k.text.toList <:+: e.message.toList ∧
        ((∃! d ∈ g.definitions, d.key.text = k.text) ∨
          (∀ d ∈ g.definitions, d.key.text ≠ k.text) ∧
            ∃ within, e = .undefinedReference within k)) ∧
      ∀ source' g' ceiling' e', Grammar.read source' = .ok g' →
        Graph.build g' ceiling' = .error e' → e.message = e'.message → e.named = e'.named := by
  have hg := sound_of_read hread
  refine ⟨fun d hd => (hg.key (.inl ⟨d, hd, rfl⟩)).readsBack, ?injective, ?refused⟩
  case injective =>
    intro source' g' hread' k k' hk hk' htext
    exact (hg.key hk).eq_of_text_eq ((sound_of_read hread').key hk') htext
  case refused =>
    intro ceiling e hbuild
    refine ⟨fun k hk => ⟨(hg.shows_message hbuild).isInfix hk, ?_⟩, ?_⟩
    · rcases hg.of_mem_named hbuild hk with ⟨d, hd, rfl⟩ | ⟨hasked, hnone, within, rfl⟩
      · exact .inl (hg.existsUnique hd)
      · refine .inr ⟨fun d hd htext => hnone d hd ?_, within, rfl⟩
        exact (hg.key (.inl ⟨d, hd, rfl⟩)).eq_of_text_eq (hg.key (.inr hasked)) htext
    · intro source' g' ceiling' e' hread' hbuild' hmessage
      have hshows := hg.shows_message hbuild
      rw [hmessage] at hshows
      exact hshows.unique ((sound_of_read hread').shows_message hbuild')

/-- A big city with a name that is not there. -/
def Grammar.cityText : String := "@[city # big]\n ~[far]\n"

/-- The definition in that text. -/
def Grammar.city : Definition where
  key := ⟨.slot, "city", some "big"⟩
  arguments := []
  line := 1
  alternatives :=
    [{ elements := [.reference ⟨.alias, "far", none, false, 2⟩], weight := none, line := 2 }]

set_option maxRecDepth 4000 in
theorem read_cityText : Grammar.read Grammar.cityText = .ok ⟨[Grammar.city], Grammar.cityText⟩ := by
  cbv

theorem build_cityText (ceiling : Nat) : Graph.build ⟨[Grammar.city], Grammar.cityText⟩ ceiling
    = .error (.undefinedReference ⟨.slot, "city", some "big"⟩ ⟨.alias, "far", none⟩) := by
  have hlink : link [Grammar.city]
      = .error (.undefinedReference ⟨.slot, "city", some "big"⟩ ⟨.alias, "far", none⟩) := by
    with_unfolding_all rfl
  exact build_eq_error_iff.mpr (.inl hlink)

/-- The city is shown as it would be written without white space, and it is the only definition that
is shown so. -/
theorem texts_of_city : Grammar.read Grammar.cityText = .ok ⟨[Grammar.city], Grammar.cityText⟩ ∧
    Grammar.city.key.text = "@[city#big]" ∧ Grammar.city.key.ReadsBack ∧
    Graph.build ⟨[Grammar.city], Grammar.cityText⟩ 10
      = .error (.undefinedReference ⟨.slot, "city", some "big"⟩ ⟨.alias, "far", none⟩) ∧
    ∃! d ∈ [Grammar.city], d.key.text = "@[city#big]" := by
  obtain ⟨hback, -, hrefused⟩ := key_texts_are_faithful read_cityText
  obtain ⟨hnamed, -⟩ := hrefused 10 _ (build_cityText 10)
  refine ⟨read_cityText, rfl, hback _ List.mem_cons_self, build_cityText 10, ?_⟩
  rcases (hnamed _ List.mem_cons_self).2 with honly | ⟨-, within, hother⟩
  · exact honly
  · cases hother

end IntentGrammar
