import IntentGrammar.Proofs.OpenFiles
import IntentGrammar.Proofs.Refusals

/-!
# Lines of utterances

When a batch comes, its file is one that is open or it is made, and then the lines of the batch are
put into it.  `LineFiles.TakesUp` says all that this changes.  What is known of the files between
batches, `LineFiles.Tracks`, is kept by each of them (**`LineFiles.Tracks.accept`**): those are open
for which there has been a batch, each is found by its path, and one whose place no other has holds
the lines for its intent and part, some of them held back.  Two intents and parts may lead to one
place; then both files are open there, and nothing is said of what stands in it.
-/

namespace IntentGrammar

open Files Text

namespace LineFiles

variable {w w' : LineFiles} {fs fs' before : Files} {f f' : OpenFile} {b : Batch} {log : List Batch}
  {directory : String}

theorem run_creating_eq_ok {α : Type} {path : String} {act : Filing α} {a : α}
    (h : (creating path act).run.run fs = (.ok a, fs')) : act.run.run fs = (.ok a, fs') := by
  have hrun : (creating path act).run.run fs
      = ((act.run.run fs).1.mapError (⟨path, ·⟩), (act.run.run fs).2) := rfl
  rcases hact : act.run.run fs with ⟨fault | a', fs₁⟩
  · rw [hrun, hact] at h
    cases h
  · rw [hrun, hact] at h
    cases h
    rfl

/-- A file that a path leads to and that bytes can be put into. -/
structure Ready (path : String) (f : OpenFile) (fs : Files) : Prop where
  found : fs.find path = .ok f.place
  file : (fs.content? f.place).isSome

theorem Ready.of_grows {path : String} (h : Ready path f fs) (hgrows : Grows fs fs') :
    Ready path f fs' :=
  ⟨hgrows.find h.found, hgrows.file _ h.file⟩

/-- The file for an intent and a part is one that is open, or it is made: then nothing is in it, and
the files at other places are as they were. -/
theorem fileFor_eq_ok {intent : String} {part : Part}
    (h : (w.fileFor intent part).run.run fs = (.ok f, fs')) :
    w.openFiles.lookup (intent, part) = some f ∧ fs' = fs ∨
      w.openFiles.lookup (intent, part) = none ∧ Grows fs fs' ∧
        Ready (w.path intent part) f fs' ∧ f.Holds fs' .empty ∧
        ∀ q, q ≠ f.place → fs'.content? q = fs.content? q := by
  rw [fileFor] at h
  rcases hlookup : w.openFiles.lookup (intent, part) with _ | g
  · rw [hlookup] at h
    obtain ⟨⟨⟩, fs₁, hmake, h⟩ := exists_of_run_bind_eq_ok h
    obtain ⟨place, fs₂, hcreate, h⟩ := exists_of_run_bind_eq_ok h
    cases h
    have hextends : Extends fs fs₁ := by
      have hall := extending_makeDirectories w.directory fs
      rwa [run_creating_eq_ok hmake] at hall
    obtain ⟨hfree, rfl, hfind⟩ := create_eq_ok (run_creating_eq_ok hcreate)
    have hplace := ne_nil_of_ne_directory hfree
    have hcontent : Files.content? (fs₁.put place (.file .empty)) place = some .empty :=
      content?_put hplace .empty
    refine .inr ⟨rfl, hextends.grows.trans (.put_file hfree _), ⟨hfind, ?_⟩, ?_, ?_⟩
    · rw [hcontent]
      rfl
    · exact ⟨.empty, hcontent, rfl, ByteArray.append_empty⟩
    · intro q hq
      rw [← hextends.content? q]
      exact content?_congr ((entry?_put hplace _ q).trans (if_neg hq))
  · rw [hlookup] at h
    cases h
    exact .inl ⟨rfl, rfl⟩

/-- The file for an intent and a part is one that a path leads to. -/
theorem ready_of_fileFor {intent : String} {part : Part}
    (hopen : ∀ g, w.openFiles.lookup (intent, part) = some g → Ready (w.path intent part) g fs)
    (h : (w.fileFor intent part).run.run fs = (.ok f, fs')) : Ready (w.path intent part) f fs' := by
  rcases fileFor_eq_ok h with ⟨hlookup, rfl⟩ | ⟨-, -, hready, -⟩
  · exact hopen f hlookup
  · exact hready

/-! ### Batches one at a time -/

/-- A batch is taken up: `f` is the file for it, open or just made, and `f'` is what becomes of
it. -/
structure TakesUp (w : LineFiles) (fs : Files) (b : Batch) (f f' : OpenFile) (w' : LineFiles)
    (fs' : Files) : Prop where
  directory : w'.directory = w.directory
  openFiles : w'.openFiles = insert (b.intent, b.part) f' w.openFiles
  known (g : OpenFile) : w.openFiles.lookup (b.intent, b.part) = some g → g = f
  place : f'.place = f.place
  grows : Grows fs fs'
  ready : Ready (w.path b.intent b.part) f' fs'
  others (q : Place) : q ≠ f.place → fs'.content? q = fs.content? q
  /-- A file that was open is written on, and one that was not is new. -/
  holds (bytes : ByteArray) :
    (w.openFiles.lookup (b.intent, b.part) = some f → f.Holds fs bytes) →
      (w.openFiles.lookup (b.intent, b.part) = none → bytes = .empty) →
        f'.Holds fs' (bytes ++ (linesText b.utterances).toUTF8)

theorem accept_eq_ok (hrun : (w.accept b).run.run fs = (.ok w', fs')) :
    ∃ f fs₁ f', (w.fileFor b.intent b.part).run.run fs = (.ok f, fs₁) ∧
      (f.writeLines b.utterances).run fs₁ = (f', fs') ∧
      w'.directory = w.directory ∧ w'.openFiles = insert (b.intent, b.part) f' w.openFiles := by
  rw [LineFiles.accept] at hrun
  obtain ⟨f, fs₁, hfile, hrun⟩ := exists_of_run_bind_eq_ok hrun
  obtain ⟨f', fs₂, hwrite, hrun⟩ := exists_of_run_bind_eq_ok hrun
  cases hwrite
  cases hrun
  exact ⟨f, fs₁, _, hfile, rfl, rfl, rfl⟩

/-- **A batch that is accepted** has been taken up. -/
theorem exists_takesUp
    (hopen : ∀ g, w.openFiles.lookup (b.intent, b.part) = some g →
      Ready (w.path b.intent b.part) g fs)
    (hrun : (w.accept b).run.run fs = (.ok w', fs')) : ∃ f f', TakesUp w fs b f f' w' fs' := by
  obtain ⟨f, fs₁, f', hfile, hwrite, hdirectory, hfiles⟩ := accept_eq_ok hrun
  have hready := ready_of_fileFor hopen hfile
  have hadds := OpenFile.adds_writeLines hwrite hready.file
  have hgrows := hadds.changes.grows hready.file
  have hready' : Ready (w.path b.intent b.part) f' fs' :=
    ⟨hadds.place ▸ hgrows.find hready.found, hadds.isSome hready.file⟩
  refine ⟨f, f', ?_⟩
  rcases fileFor_eq_ok hfile with ⟨hlookup, rfl⟩ | ⟨hlookup, hmade, -, hempty, hothers⟩
  · -- an open file changes at its place only, by what is written to it
    exact {
      directory := hdirectory
      openFiles := hfiles
      known := fun g hg => Option.some.inj (hg.symm.trans hlookup)
      place := hadds.place
      grows := hgrows
      ready := hready'
      others := fun q hq => hadds.changes.content? hq
      holds := fun bytes hopened _ => hadds.holds bytes (hopened hlookup) }
  · -- a new file may come with directories, and whatever stood at its place is gone
    exact {
      directory := hdirectory
      openFiles := hfiles
      known := fun g hg => by cases hg.symm.trans hlookup
      place := hadds.place
      grows := hmade.trans hgrows
      ready := hready'
      others := fun q hq => (hadds.changes.content? hq).trans (hothers q hq)
      holds := fun bytes _ hnew => hadds.holds bytes (hnew hlookup ▸ hempty) }

namespace TakesUp

theorem lookup (h : TakesUp w fs b f f' w' fs') (key : String × Part) :
    w'.openFiles.lookup key
      = if key = (b.intent, b.part) then some f' else w.openFiles.lookup key := by
  rw [h.openFiles, lookup_insert]

theorem lookup_self (h : TakesUp w fs b f f' w' fs') :
    w'.openFiles.lookup (b.intent, b.part) = some f' := by
  rw [h.lookup, if_pos rfl]

theorem lookup_of_ne (h : TakesUp w fs b f f' w' fs') {key : String × Part}
    (hkey : key ≠ (b.intent, b.part)) : w'.openFiles.lookup key = w.openFiles.lookup key := by
  rw [h.lookup, if_neg hkey]

theorem path (h : TakesUp w fs b f f' w' fs') (intent : String) (part : Part) :
    w'.path intent part = w.path intent part := by
  rw [LineFiles.path, LineFiles.path, h.directory]

/-- Files that stand alone afterwards stood alone before. -/
theorem alone (h : TakesUp w fs b f f' w' fs') {key : String × Part} {place : Place}
    (halone : ∀ key' g, w'.openFiles.lookup key' = some g → g.place = place → key' = key)
    (key' : String × Part) (g : OpenFile) (hg : w.openFiles.lookup key' = some g)
    (hplace : g.place = place) : key' = key := by
  by_cases hkey : key' = (b.intent, b.part)
  · subst hkey
    apply halone _ f' h.lookup_self
    rw [h.place, ← h.known g hg, hplace]
  · apply halone _ g _ hplace
    rw [h.lookup_of_ne hkey, hg]

end TakesUp

/-! ### What has been delivered -/

/-- A batch adds its utterances to what has been delivered for its intent and part. -/
theorem delivered_concat (log : List Batch) (b : Batch) (intent : String) (part : Part) :
    delivered (log ++ [b]) intent part = delivered log intent part
      ++ if (b.intent, b.part) = (intent, part) then b.utterances else [] := by
  rw [delivered, List.filter_append, ofPart_append, ← delivered]
  congr 1
  by_cases hintent : b.intent = intent
  · by_cases hpart : b.part = part
    · simp [hintent, hpart, ofPart]
    · simp [hintent, hpart, ofPart]
  · simp [hintent, ofPart]

theorem delivered_eq_nil {intent : String} {part : Part}
    (h : ∀ b ∈ log, (b.intent, b.part) ≠ (intent, part)) : delivered log intent part = [] := by
  rw [delivered, ofPart, List.filter_filter, List.flatMap_eq_nil_iff]
  intro b hb
  obtain ⟨hb, hkey⟩ := List.mem_filter.mp hb
  simp only [Bool.and_eq_true, decide_eq_true_eq] at hkey
  exact absurd (Prod.ext hkey.2 hkey.1) (h b hb)

/-! ### What the files are known to hold -/

/-- The files after batches have been taken up.  None is lost, and those are open for which there
has been a batch.  Each is found by its path, and one whose place no other has holds the lines for
its intent and part.  Other files are as they were before. -/
structure Tracks (directory : String) (before : Files) (log : List Batch) (w : LineFiles)
    (fs : Files) : Prop where
  directory : w.directory = directory
  grows : Grows before fs
  ordered : Ordered w.openFiles
  opened (key : String × Part) :
    (w.openFiles.lookup key).isSome ↔ ∃ b ∈ log, (b.intent, b.part) = key
  ready (key : String × Part) (f : OpenFile) : w.openFiles.lookup key = some f →
    Ready (w.path key.1 key.2) f fs
  holds (key : String × Part) (f : OpenFile) : w.openFiles.lookup key = some f →
    (∀ key' f', w.openFiles.lookup key' = some f' → f'.place = f.place → key' = key) →
      f.Holds fs (linesText (delivered log key.1 key.2)).toUTF8
  others (place : Place) : (∀ key f, w.openFiles.lookup key = some f → f.place ≠ place) →
    fs.content? place = before.content? place

theorem tracks_nothing (directory : String) (fs : Files) :
    Tracks directory fs [] { directory } fs where
  directory := rfl
  grows := .refl fs
  ordered := List.Pairwise.nil
  opened key := ⟨nofun, nofun⟩
  ready key f h := by cases h
  holds key f h := by cases h
  others _ _ := rfl

section Step

variable (h : Tracks directory before log w fs) (hstep : TakesUp w fs b f f' w' fs')
include h hstep

theorem Tracks.opened_of_takesUp (key : String × Part) :
    (w'.openFiles.lookup key).isSome ↔ ∃ c ∈ log ++ [b], (c.intent, c.part) = key := by
  by_cases hkey : key = (b.intent, b.part)
  · subst hkey
    rw [hstep.lookup_self]
    exact ⟨fun _ => ⟨b, List.mem_concat_self, rfl⟩, fun _ => rfl⟩
  · rw [hstep.lookup_of_ne hkey, h.opened]
    constructor
    · rintro ⟨c, hc, hckey⟩
      exact ⟨c, List.mem_append_left _ hc, hckey⟩
    · rintro ⟨c, hc, hckey⟩
      rcases List.mem_append.mp hc with hc | hc
      · exact ⟨c, hc, hckey⟩
      · rw [List.mem_singleton.mp hc] at hckey
        exact absurd hckey.symm hkey

theorem Tracks.ready_of_takesUp {key : String × Part} {g : OpenFile}
    (hg : w'.openFiles.lookup key = some g) : Ready (w'.path key.1 key.2) g fs' := by
  rw [hstep.path]
  by_cases hkey : key = (b.intent, b.part)
  · subst hkey
    rw [hstep.lookup_self] at hg
    cases hg
    exact hstep.ready
  · rw [hstep.lookup_of_ne hkey] at hg
    exact (h.ready key g hg).of_grows hstep.grows

theorem Tracks.holds_of_takesUp {key : String × Part} {g : OpenFile}
    (hg : w'.openFiles.lookup key = some g)
    (halone : ∀ key' g', w'.openFiles.lookup key' = some g' → g'.place = g.place → key' = key) :
    g.Holds fs' (linesText (delivered (log ++ [b]) key.1 key.2)).toUTF8 := by
  have hbefore := hstep.alone halone
  by_cases hkey : key = (b.intent, b.part)
  · subst hkey
    rw [hstep.lookup_self] at hg
    cases hg
    rw [hstep.place] at hbefore
    rw [delivered_concat, if_pos rfl, toUTF8_linesText_append]
    apply hstep.holds
    · exact fun hopen => h.holds _ f hopen hbefore
    · -- a file that was not open has had no batch
      intro hnew
      rw [delivered_eq_nil]
      · rfl
      · intro c hc hckey
        have hopen := (h.opened _).mpr ⟨c, hc, hckey⟩
        rw [hnew] at hopen
        cases hopen
  · -- the place of another file is not that of the batch, for then it would not stand alone
    rw [hstep.lookup_of_ne hkey] at hg
    have hne : g.place ≠ f.place := by
      intro heq
      exact hkey (halone _ f' hstep.lookup_self (hstep.place.trans heq.symm)).symm
    obtain ⟨sent, hcontent, hsize, hbytes⟩ := h.holds key g hg hbefore
    rw [delivered_concat, if_neg fun heq => hkey heq.symm, List.append_nil]
    exact ⟨sent, (hstep.others _ hne).trans hcontent, hsize, hbytes⟩

theorem Tracks.others_of_takesUp {place : Place}
    (hplace : ∀ key g, w'.openFiles.lookup key = some g → g.place ≠ place) :
    fs'.content? place = before.content? place := by
  have hne : place ≠ f.place := by
    rintro rfl
    exact hplace _ f' hstep.lookup_self hstep.place
  rw [hstep.others place hne]
  apply h.others
  intro key g hg heq
  by_cases hkey : key = (b.intent, b.part)
  · subst hkey
    exact hne (heq ▸ congrArg OpenFile.place (hstep.known g hg))
  · apply hplace key g _ heq
    rw [hstep.lookup_of_ne hkey, hg]

end Step

/-- **A batch is taken up** into the file for its intent and part. -/
theorem Tracks.accept (h : Tracks directory before log w fs)
    (hrun : (w.accept b).run.run fs = (.ok w', fs')) :
    Tracks directory before (log ++ [b]) w' fs' := by
  obtain ⟨f, f', hstep⟩ := exists_takesUp (h.ready (b.intent, b.part)) hrun
  exact {
    directory := hstep.directory.trans h.directory
    grows := h.grows.trans hstep.grows
    ordered := hstep.openFiles ▸ h.ordered.insert _ _
    opened := h.opened_of_takesUp hstep
    ready := fun _ _ => h.ready_of_takesUp hstep
    holds := fun _ _ => h.holds_of_takesUp hstep
    others := fun _ => h.others_of_takesUp hstep }

end LineFiles

end IntentGrammar
