import IntentGrammar.Proofs.Filings
import IntentGrammar.Proofs.JsonLines

/-!
# What lines of utterances tell

A token is read back from its record, and so is an utterance from the array of the records
(`Utterance.ofJson?_toJson`).  Since its text is read back too and has no line break, each line of a
text of utterances gives the utterance that it was written for (`map_ofLine?_textLines`), and the
text is that of no others.  The files for intents and parts are only ever added to, in the order in
which the batches come (`Written.HoldsFor.after`), so what they hold does not show where one batch
ended and the next began, but all that was in them (**`lines_determine_utterances`**).
-/

namespace IntentGrammar

/-! ### Records of tokens -/

/-- A token is told from its record: its kind, and all that it has. -/
theorem Token.ofJson?_toJson (t : Token) : Token.ofJson? t.toJson = some t := by
  rcases t with text | ⟨slot, value, _ | synonym⟩
  · rfl
  · rfl
  · rfl

/-- An utterance is told from the records of its tokens. -/
theorem Utterance.ofJson?_toJson (u : Utterance) :
    Utterance.ofJson? (Utterance.toJson u) = some u := by
  show (u.map Token.toJson).mapM Token.ofJson? = some u
  induction u with
  | nil => rfl
  | cons t u ih =>
    rw [List.map_cons, List.mapM_cons, Token.ofJson?_toJson, ih]
    rfl

/-! ### Lines -/

/-- Read an utterance from a line. -/
def Utterance.ofLine? (line : List Char) : Option Utterance := do
  let j ← Json.read? (String.ofList line)
  Utterance.ofJson? j

theorem Utterance.ofLine?_compact (u : Utterance) :
    Utterance.ofLine? (Utterance.toJson u).compact = some u := by
  show (Json.read? (Utterance.toJson u).text >>= Utterance.ofJson?) = some u
  rw [Json.read?_text]
  exact Utterance.ofJson?_toJson u

/-- **Each line** gives the utterance that it was written for. -/
theorem map_ofLine?_textLines (us : List Utterance) :
    (textLines (linesText us)).map Utterance.ofLine? = us.map some := by
  rw [textLines_linesText, List.map_map]
  exact List.map_congr_left fun u _ => Utterance.ofLine?_compact u

theorem linesText_injective : Function.Injective linesText := by
  intro us vs h
  have hlines := map_ofLine?_textLines us
  rw [h, map_ofLine?_textLines] at hlines
  exact (List.map_injective_iff.mpr (Option.some_injective _) hlines).symm

/-! ### Files that are added to -/

namespace Written

open LineFiles

variable {w : Written} {key : String × Part} {bytes : ByteArray} {bs : List Batch}

/-- The file for an intent and a part holds these bytes, none if there is no such file yet. -/
structure HoldsFor (w : Written) (key : String × Part) (bytes : ByteArray) : Prop where
  known (f : OpenFile) : w.output.openFiles.lookup key = some f → f.Holds w.files bytes
  new : w.output.openFiles.lookup key = none → bytes = .empty

/-- There is only one thing that a file holds. -/
theorem HoldsFor.unique {more : ByteArray} (h : w.HoldsFor key bytes) (h' : w.HoldsFor key more) :
    bytes = more := by
  rcases hlookup : w.output.openFiles.lookup key with _ | f
  · rw [h.new hlookup, h'.new hlookup]
  · obtain ⟨sent, hcontent, -, rfl⟩ := h.known f hlookup
    obtain ⟨sent', hcontent', -, rfl⟩ := h'.known f hlookup
    rw [Option.some.inj (hcontent.symm.trans hcontent')]

/-- **A batch that is accepted** puts its lines behind what the file for it holds. -/
theorem HoldsFor.accept {b : Batch} (h : w.HoldsFor (b.intent, b.part) bytes)
    (haccepted : (sink.accept b w).1 = .accepted) :
    (sink.accept b w).2.HoldsFor (b.intent, b.part)
      (bytes ++ (linesText b.utterances).toUTF8) := by
  obtain ⟨w', fs', hrun, haccept⟩ := accept_eq_accepted_iff.mp haccepted
  obtain ⟨f, fs₁, f', hfile, hwrite, -, hfiles⟩ := accept_eq_ok hrun
  have hholds : f.Holds fs₁ bytes := by
    rcases fileFor_eq_ok hfile with ⟨hlookup, rfl⟩ | ⟨hlookup, -, -, hempty, -⟩
    · exact h.known f hlookup
    · rwa [h.new hlookup]
  have hsome : (fs₁.content? f.place).isSome := by
    obtain ⟨sent, hcontent, -⟩ := hholds
    rw [hcontent]
    rfl
  have hlookup : w'.openFiles.lookup (b.intent, b.part) = some f' := by
    rw [hfiles, lookup_insert, if_pos rfl]
  rw [haccept]
  constructor
  · intro g hg
    obtain rfl : f' = g := Option.some.inj (hlookup.symm.trans hg)
    exact (OpenFile.adds_writeLines hwrite hsome).holds bytes hholds
  · intro hnew
    cases hlookup.symm.trans hnew

/-- **Batches for one intent and part** put all their lines there, one behind the other. -/
theorem HoldsFor.after (h : w.HoldsFor key bytes) (hbs : ∀ b ∈ bs, (b.intent, b.part) = key)
    (htakes : sink.Takes w bs) :
    (sink.after w bs).HoldsFor key
      (bytes ++ (linesText (bs.flatMap (·.utterances))).toUTF8) := by
  induction bs generalizing w bytes with
  | nil =>
    show w.HoldsFor key (bytes ++ .empty)
    rwa [ByteArray.append_empty]
  | cons b bs ih =>
    obtain ⟨haccepted, hrest⟩ := htakes
    obtain ⟨rfl, hbs⟩ := List.forall_mem_cons.mp hbs
    rw [List.flatMap_cons, toUTF8_linesText_append, ← ByteArray.append_assoc]
    exact ih (h.accept haccepted) hbs hrest

end Written

/-- **Lines determine the utterances.**  The text of an utterance has no control characters below
U+0020, so a text of utterances has a line for each, and each line gives the utterance that it was
written for.  Batches for one intent and part put their lines behind what its file holds.  However
they were cut, two lists of batches leave the same there just if their utterances are the same. -/
theorem lines_determine_utterances :
    (∀ u : Utterance, ∀ c ∈ (Utterance.toJson u).text.toList, 32 ≤ c.toNat) ∧
    (∀ us : List Utterance, (linesText us).toList.count '\n' = us.length ∧
      (textLines (linesText us)).map Utterance.ofLine? = us.map some) ∧
    Function.Injective linesText ∧
    ∀ (w : Written) (key : String × Part) (before : ByteArray), w.HoldsFor key before →
      ∀ bs cs : List Batch, (∀ b ∈ bs ++ cs, (b.intent, b.part) = key) →
        Written.sink.Takes w bs → Written.sink.Takes w cs →
          (Written.sink.after w bs).HoldsFor key
            (before ++ (linesText (bs.flatMap (·.utterances))).toUTF8) ∧
          ((∃ bytes, (Written.sink.after w bs).HoldsFor key bytes ∧
              (Written.sink.after w cs).HoldsFor key bytes) ↔
            bs.flatMap (·.utterances) = cs.flatMap (·.utterances)) := by
  refine ⟨fun u => ?_, fun us => ⟨count_newline_linesText us, map_ofLine?_textLines us⟩,
    linesText_injective, ?_⟩
  · rw [Json.text, String.toList_ofList]
    exact (Utterance.toJson u).le_toNat_compact
  intro w key before hbefore bs cs hkeys hbs hcs
  rw [List.forall_mem_append] at hkeys
  have hafter := hbefore.after hkeys.1 hbs
  have hafter' := hbefore.after hkeys.2 hcs
  refine ⟨hafter, ?_, fun hsame => ⟨_, hafter, hsame ▸ hafter'⟩⟩
  rintro ⟨bytes, hbytes, hbytes'⟩
  -- the same bytes are behind those from before, and they are the same text
  have hlines := (hafter.unique hbytes).trans (hbytes'.unique hafter')
  have htexts := ByteArray.append_right_inj _ |>.mp hlines
  exact linesText_injective (String.toByteArray_inj.mp htexts)

/-- A batch of two utterances, the first with characters that are escaped. -/
def Batch.controls : List Batch :=
  [⟨"note", 0, .training, [[.word "\"\\\n\u0001"], [.entity "who" "Ann" none]]⟩]

/-- The same utterances in two batches. -/
def Batch.controlsApart : List Batch :=
  [⟨"note", 0, .training, [[.word "\"\\\n\u0001"]]⟩,
    ⟨"note", 1, .training, [[.entity "who" "Ann" none]]⟩]

/-- One batch or two, the file has the same two lines. -/
theorem lines_of_controls : ∃ bytes,
    (Written.sink.after ⟨{ directory := "." }, {}⟩ Batch.controls).HoldsFor
      ("note", .training) bytes ∧
    (Written.sink.after ⟨{ directory := "." }, {}⟩ Batch.controlsApart).HoldsFor
      ("note", .training) bytes ∧
    bytes = ("[\x7b\"type\":\"word\",\"text\":\"\\\"\\\\\\n\\u0001\"\x7d]\n"
      ++ "[\x7b\"type\":\"entity\",\"slot\":\"who\",\"value\":\"Ann\","
      ++ "\"synonym\":null\x7d]\n").toUTF8 := by
  have hnote : Files.Writable "." (LineFiles.fileName "note" .training) :=
    ⟨LineFiles.isName_fileName (by decide) _, by decide, by decide, by decide⟩
  have htakes (bs : List Batch) (hbs : ∀ b ∈ bs, (b.intent, b.part) = ("note", .training)) :
      Written.sink.Takes ⟨{ directory := "." }, {}⟩ bs := by
    refine ((LineFiles.tracks_nothing "." {}).takes_of_writable (Files.leads_here rfl)
      fun b hb => ?_).1
    obtain ⟨hintent, hpart⟩ := Prod.mk.inj (hbs b hb)
    rw [hintent, hpart]
    exact ⟨hnote, ne_directory_of_empty _⟩
  have hkey : ∀ b ∈ Batch.controls ++ Batch.controlsApart,
      (b.intent, b.part) = ("note", Part.training) := by decide
  rw [List.forall_mem_append] at hkey
  have hnothing : Written.HoldsFor ⟨{ directory := "." }, {}⟩ ("note", .training) .empty :=
    ⟨by rintro f ⟨⟩, fun _ => rfl⟩
  obtain ⟨hholds, hsame⟩ := lines_determine_utterances.2.2.2 _ _ _ hnothing Batch.controls
    Batch.controlsApart (List.forall_mem_append.mpr hkey) (htakes _ hkey.1) (htakes _ hkey.2)
  obtain ⟨bytes, hbytes, hapart⟩ := hsame.mpr rfl
  refine ⟨bytes, hbytes, hapart, ?_⟩
  rw [hbytes.unique hholds]
  cbv

end IntentGrammar
