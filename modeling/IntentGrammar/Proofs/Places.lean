import IntentGrammar.Files.Basic
import IntentGrammar.Proofs.Sinks
import IntentGrammar.Proofs.Traversal

/-!
# Places of files

Where a path leads depends on the directories that it passes.  These stay where they are when files
are written and when files and directories are made (`Files.Grows`), so a path that has been found
leads to the same place from then on (`Files.Grows.find`).

To make directories changes no file (`Files.Extends`).  A file that is made is empty, and its path
leads to it (`Files.create_eq_ok`).  To write a file changes nothing at other places
(`Files.ChangesAt`).
-/

namespace IntentGrammar

open Text

namespace Files

variable {fs fs' fs₁ : Files} {place q : Place} {path : String}

/-! ### Entries -/

@[simp]
theorem entry?_nil (fs : Files) : fs.entry? [] = some .directory := if_pos rfl

theorem lookup_filter_ne {es : List (Place × Entry)} (h : q ≠ place) :
    (es.filter (·.1 ≠ place)).lookup q = es.lookup q := by
  induction es with
  | nil => rfl
  | cons e es ih =>
    obtain ⟨p, entry⟩ := e
    by_cases hp : p = place
    · have hq : (q == p) = false := by simpa [hp] using h
      rw [List.filter_cons_of_neg (by simpa using hp), ih, List.lookup_cons, hq]
    · rw [List.filter_cons_of_pos (by simpa using hp), List.lookup_cons, List.lookup_cons, ih]

theorem entry?_put (hplace : place ≠ []) (entry : Entry) (q : Place) :
    Files.entry? (fs.put place entry) q = if q = place then some entry else fs.entry? q := by
  by_cases hq : q = []
  · subst hq
    rw [if_neg (fun h => hplace h.symm), entry?_nil, entry?_nil]
  · unfold entry?
    rw [if_neg hq, if_neg hq, put, List.lookup_cons]
    by_cases h : q = place
    · subst h
      simp
    · have hne : (q == place) = false := by simpa using h
      rw [if_neg h, hne]
      exact lookup_filter_ne h

/-- The root is no file. -/
theorem ne_nil_of_ne_directory (h : fs.entry? place ≠ some .directory) : place ≠ [] := by
  rintro rfl
  exact h (entry?_nil fs)

/-! ### What is there stays there -/

/-- Directories stay directories, and files stay files. -/
structure Grows (fs fs' : Files) : Prop where
  workDir : fs'.workDir = fs.workDir
  directory (place : Place) : fs.entry? place = some .directory →
    fs'.entry? place = some .directory
  file (place : Place) : (fs.content? place).isSome → (fs'.content? place).isSome

theorem content?_eq_some_iff {content : ByteArray} :
    fs.content? place = some content ↔ fs.entry? place = some (.file content) := by
  rw [content?]
  rcases fs.entry? place with _ | _ | content'
  · exact ⟨nofun, nofun⟩
  · exact ⟨nofun, nofun⟩
  · exact ⟨fun h => by cases h; rfl, fun h => by cases h; rfl⟩

theorem content?_congr (h : fs'.entry? place = fs.entry? place) :
    fs'.content? place = fs.content? place := by
  rw [content?, h, content?]

namespace Grows

theorem refl (fs : Files) : Grows fs fs := ⟨rfl, fun _ h => h, fun _ h => h⟩

theorem trans (h : Grows fs fs₁) (h' : Grows fs₁ fs') : Grows fs fs' where
  workDir := h'.workDir.trans h.workDir
  directory place hplace := h'.directory place (h.directory place hplace)
  file place hplace := h'.file place (h.file place hplace)

/-- What was there is there. -/
theorem isSome_entry? (h : Grows fs fs') (hplace : (fs.entry? place).isSome) :
    (fs'.entry? place).isSome := by
  obtain ⟨entry, hentry⟩ := Option.isSome_iff_exists.mp hplace
  rcases entry with _ | content
  · rw [h.directory place hentry]
    rfl
  · have hfile := h.file place (by rw [content?_eq_some_iff.mpr hentry]; rfl)
    obtain ⟨content', hcontent'⟩ := Option.isSome_iff_exists.mp hfile
    rw [content?_eq_some_iff.mp hcontent']
    rfl

theorem start (h : Grows fs fs') (path : String) : fs'.start path = fs.start path := by
  rw [Files.start, Files.start, h.workDir]

theorem child {name : String} (h : Grows fs fs') (hchild : fs.child place name = .ok q) :
    fs'.child place name = .ok q := by
  unfold Files.child at hchild ⊢
  split at hchild
  · cases hchild
  · next hshort =>
    split at hchild
    · cases hchild
    · next hthere =>
      rw [if_neg hshort]
      have hsome : (fs.entry? (place ++ [name])).isSome := by
        simpa [Option.isSome_iff_ne_none] using hthere
      have hsome' := h.isSome_entry? hsome
      rw [if_neg (by simpa [Option.isSome_iff_ne_none] using hsome')]
      exact hchild

/-- A way that has been walked can be walked again. -/
theorem walk (h : Grows fs fs') {steps : List Path.Step} (hwalk : fs.walk place steps = .ok q) :
    fs'.walk place steps = .ok q := by
  induction steps generalizing place with
  | nil => exact hwalk
  | cons step steps ih =>
    simp only [Files.walk] at hwalk ⊢
    split at hwalk
    · next hdirectory =>
      rw [if_pos (h.directory place hdirectory)]
      cases step with
      | stay => exact ih hwalk
      | up => exact ih hwalk
      | down name =>
        obtain ⟨below, hbelow, hwalk⟩ := bind_eq_ok_iff.mp hwalk
        exact bind_eq_ok_iff.mpr ⟨below, h.child hbelow, ih hwalk⟩
    · cases hwalk

/-- **A path that has been found** leads to the same place from then on. -/
theorem find (h : Grows fs fs') (hfind : fs.find path = .ok place) :
    fs'.find path = .ok place := by
  obtain ⟨origin, horigin, hwalk⟩ := bind_eq_ok_iff.mp hfind
  exact bind_eq_ok_iff.mpr ⟨origin, (h.start path).trans horigin, h.walk hwalk⟩

/-- A file can be put where no directory is. -/
theorem put_file (h : fs.entry? place ≠ some .directory) (content : ByteArray) :
    Grows fs (fs.put place (.file content)) := by
  have hput (q : Place) : Files.entry? (fs.put place (.file content)) q
      = if q = place then some (.file content) else fs.entry? q :=
    entry?_put (ne_nil_of_ne_directory h) (.file content) q
  refine ⟨rfl, fun q hq => ?_, fun q hq => ?_⟩
  · rw [hput, if_neg]
    · exact hq
    · rintro rfl
      exact h hq
  · by_cases hqp : q = place
    · rw [content?, hput, if_pos hqp]
      rfl
    · rwa [content?_congr ((hput q).trans (if_neg hqp))]

end Grows

/-! ### Making directories -/

/-- No more than directories have been made, where nothing stood. -/
structure Extends (fs fs' : Files) : Prop where
  workDir : fs'.workDir = fs.workDir
  entries (place : Place) : fs'.entry? place = fs.entry? place ∨
    fs.entry? place = none ∧ fs'.entry? place = some .directory

namespace Extends

theorem refl (fs : Files) : Extends fs fs := ⟨rfl, fun _ => .inl rfl⟩

theorem trans (h : Extends fs fs₁) (h' : Extends fs₁ fs') : Extends fs fs' where
  workDir := h'.workDir.trans h.workDir
  entries place := by
    rcases h'.entries place with hsame | ⟨hnone, hmade⟩
    · rw [hsame]
      exact h.entries place
    · rcases h.entries place with hsame | ⟨-, hmade'⟩
      · exact .inr ⟨hsame ▸ hnone, hmade⟩
      · rw [hmade'] at hnone
        cases hnone

/-- The files are as they were. -/
theorem content? (h : Extends fs fs') (place : Place) :
    fs'.content? place = fs.content? place := by
  rcases h.entries place with hsame | ⟨hnone, hmade⟩
  · exact content?_congr hsame
  · rw [Files.content?, Files.content?, hnone, hmade]

theorem grows (h : Extends fs fs') : Grows fs fs' where
  workDir := h.workDir
  directory place hplace := by
    rcases h.entries place with hsame | ⟨hnone, -⟩
    · rw [hsame, hplace]
    · rw [hplace] at hnone
      cases hnone
  file place hplace := by rwa [h.content?]

theorem put (h : fs.entry? place = none) : Extends fs (fs.put place .directory) where
  workDir := rfl
  entries q := by
    have hplace : place ≠ [] := ne_nil_of_ne_directory (by rw [h]; nofun)
    rw [entry?_put hplace]
    split
    · next hq => exact .inr ⟨hq ▸ h, rfl⟩
    · exact .inl rfl

end Extends

/-- The computation makes no more than directories, also if it fails. -/
def Extending {α : Type} (act : Filing α) : Prop := ∀ fs, Extends fs (act.run.run fs).2

section Making

variable {α : Type}

theorem run_tryCatch (act : Filing α) (handle : FileFault → Filing α) (fs : Files) :
    (tryCatch act handle).run.run fs
      = match act.run.run fs with
        | (.ok a, fs₁) => (.ok a, fs₁)
        | (.error fault, fs₁) => (handle fault).run.run fs₁ := by
  rw [ExceptT.run_tryCatch, StateT.run_bind]
  rcases act.run.run fs with ⟨fault | a, fs₁⟩
  · rfl
  · rfl

theorem Extending.tryCatch {act : Filing α} {handle : FileFault → Filing α} (hact : Extending act)
    (hhandle : ∀ fault, Extending (handle fault)) : Extending (tryCatch act handle) := by
  intro fs
  have hfirst := hact fs
  rw [run_tryCatch]
  rcases hrun : act.run.run fs with ⟨fault | a, fs₁⟩
  · rw [hrun] at hfirst
    exact hfirst.trans (hhandle fault fs₁)
  · rw [hrun] at hfirst
    exact hfirst

theorem Extending.bind {β : Type} {act : Filing α} {next : α → Filing β} (hact : Extending act)
    (hnext : ∀ a, Extending (next a)) : Extending (act >>= next) := by
  intro fs
  have hfirst := hact fs
  rcases hrun : act.run.run fs with ⟨fault | a, fs₁⟩
  · rw [hrun] at hfirst
    rwa [run_bind_of_error hrun]
  · rw [hrun] at hfirst
    rw [run_bind_of_ok hrun]
    exact hfirst.trans (hnext a fs₁)

theorem extending_pure (a : α) : Extending (pure a : Filing α) := fun fs => .refl fs

theorem extending_throw (fault : FileFault) : Extending (throw fault : Filing α) :=
  fun fs => .refl fs

theorem extending_get : Extending (get : Filing Files) := fun fs => .refl fs

theorem extending_makeDirectory (path : String) : Extending (makeDirectory path) := by
  intro fs
  rw [makeDirectory, run_get_bind]
  rcases fs.approach path with fault | ⟨place, step⟩
  · exact .refl fs
  · cases step with
    | stay => exact .refl fs
    | up => exact .refl fs
    | down name =>
      show Extends fs (ExceptT.run (do
        if (fs.entry? (place ++ [name])).isSome then throw .alreadyExists
        set (fs.put (place ++ [name]) .directory) : Filing Unit) fs).2
      rcases hentry : fs.entry? (place ++ [name]) with _ | entry
      · exact .put hentry
      · exact .refl fs

theorem extending_ensureDirectory (path : String) : Extending (ensureDirectory path) := by
  apply (extending_makeDirectory path).tryCatch
  intro fault
  apply extending_get.bind
  intro fs
  split
  · exact extending_pure ()
  · exact extending_throw fault

theorem extending_makeOutward (paths : List String) : Extending (makeOutward paths) := by
  induction paths with
  | nil => exact extending_pure ()
  | cons path above ih =>
    rw [makeOutward]
    split
    · exact extending_pure ()
    · apply (extending_ensureDirectory path).tryCatch
      intro fault
      have hretry : Extending (makeOutward above >>= fun _ => ensureDirectory path) :=
        ih.bind fun _ => extending_ensureDirectory path
      by_cases hfault : fault ≠ .notFound
      · simp only [if_pos hfault]
        exact (extending_throw fault).bind fun _ => hretry
      · simp only [if_neg hfault]
        exact hretry

/-- **To make directories** changes no file. -/
theorem extending_makeDirectories (path : String) : Extending (makeDirectories path) :=
  extending_makeOutward _

end Making

/-! ### Making files -/

/-- A way is walked part by part. -/
theorem walk_append_eq_ok_iff {steps steps' : List Path.Step} {origin : Place} :
    fs.walk origin (steps ++ steps') = .ok place ↔
      ∃ p, fs.walk origin steps = .ok p ∧ fs.walk p steps' = .ok place := by
  induction steps generalizing origin with
  | nil => exact ⟨fun h => ⟨origin, rfl, h⟩, fun ⟨p, hp, h⟩ => Except.ok.inj hp ▸ h⟩
  | cons step steps ih =>
    rw [List.cons_append]
    simp only [walk]
    split
    · cases step with
      | stay => exact ih
      | up => exact ih
      | down name =>
        show (fs.child origin name >>= _) = _ ↔ _
        simp only [bind_eq_ok_iff]
        constructor
        · rintro ⟨below, hbelow, h⟩
          obtain ⟨p, hp, h⟩ := ih.mp h
          exact ⟨p, ⟨below, hbelow, hp⟩, h⟩
        · rintro ⟨p, ⟨below, hbelow, hp⟩, h⟩
          exact ⟨below, hbelow, ih.mpr ⟨p, hp, h⟩⟩
    · exact ⟨nofun, fun ⟨p, hp, _⟩ => by cases hp⟩

/-- Without a slash at the end the last step of a path is that of its last name. -/
theorem steps_eq_approach (hpath : path ≠ "") (hslash : path.toList.getLast? ≠ some '/') :
    Path.steps path = (Path.approach path).1 ++ [(Path.approach path).2] := by
  have hchars : path.toList ≠ [] := by
    rw [Ne, String.toList_eq_nil_iff]
    exact hpath
  rcases hreverse : (cut '/' path.toList).reverse with _ | ⟨segment, rest⟩
  · exact absurd (List.reverse_eq_nil_iff.mp hreverse) (cut_ne_nil '/' path.toList)
  · have hcut : cut '/' path.toList = rest.reverse ++ [segment] := by
      rw [← List.reverse_reverse (cut '/' path.toList), hreverse, List.reverse_cons]
    have hsegment : segment.isEmpty = false := by
      rw [List.isEmpty_eq_false_iff]
      rintro rfl
      apply hslash
      apply getLast?_of_cut _ hchars
      rw [hcut, List.getLast?_append]
      rfl
    rw [Path.steps, Path.approach, hreverse, List.dropWhile_cons_of_neg (by simp [hsegment]), hcut,
      List.map_append]
    rfl

/-- The directory and the last name of a path. -/
theorem approach_eq_ok {name : String} (h : fs.approach path = .ok (place, .down name)) :
    ∃ origin, fs.start path = .ok origin ∧ fs.walk origin (Path.approach path).1 = .ok place ∧
      (Path.approach path).2 = .down name ∧ fs.entry? place = some .directory ∧
      name.utf8ByteSize ≤ maxName := by
  unfold approach at h
  generalize Path.approach path = lead at h ⊢
  obtain ⟨steps, last⟩ := lead
  obtain ⟨origin, horigin, h⟩ := bind_eq_ok_iff.mp h
  obtain ⟨dir, hdir, h⟩ := bind_eq_ok_iff.mp h
  rcases hentry : fs.entry? dir with _ | _ | content
  · rw [hentry] at h
    cases last with
    | stay => cases h
    | up => cases h
    | down name' => cases h
  · rw [hentry] at h
    cases last with
    | stay => cases h
    | up => cases h
    | down name' =>
      simp only at h
      split at h
      · cases h
      · next hshort =>
        cases h
        exact ⟨origin, horigin, hdir, rfl, hentry, Nat.le_of_not_lt hshort⟩
  · rw [hentry] at h
    cases last with
    | stay => cases h
    | up => cases h
    | down name' => cases h

/-- **A file that is made** is empty, and its path leads to it. -/
theorem create_eq_ok (h : (create path).run.run fs = (.ok place, fs')) :
    fs.entry? place ≠ some .directory ∧ fs' = fs.put place (.file .empty) ∧
      fs'.find path = .ok place := by
  rw [create, run_get_bind] at h
  rcases happroach : fs.approach path with fault | ⟨dir, step⟩
  · rw [happroach] at h
    cases h
  · rw [happroach] at h
    cases step with
    | stay => cases h
    | up => cases h
    | down name =>
      replace h : (ExceptT.run (do
          if path.toList.getLast? = some '/' || fs.entry? (dir ++ [name]) = some .directory then
            throw .isDirectory
          set (fs.put (dir ++ [name]) (.file .empty))
          return dir ++ [name] : Filing Place)).run fs = (.ok place, fs') := h
      split at h
      · cases h
      · next hfree =>
        simp only [Bool.or_eq_true, decide_eq_true_eq, not_or] at hfree
        cases h
        obtain ⟨origin, horigin, hwalk, hlast, hentry, hshort⟩ := approach_eq_ok happroach
        have hgrows := Grows.put_file hfree.2 .empty
        have hpath : path ≠ "" := by
          rintro rfl
          cases horigin
        refine ⟨hfree.2, rfl, bind_eq_ok_iff.mpr ⟨origin, (hgrows.start path).trans horigin, ?_⟩⟩
        rw [steps_eq_approach hpath hfree.1, hlast]
        refine walk_append_eq_ok_iff.mpr ⟨dir, hgrows.walk hwalk, ?_⟩
        -- the last step goes down to the new file
        have hthere : Files.entry? (fs.put (dir ++ [name]) (.file .empty)) (dir ++ [name])
            = some (.file .empty) := by
          rw [entry?_put (ne_nil_of_ne_directory hfree.2), if_pos rfl]
        simp only [walk, if_pos (hgrows.directory dir hentry), child, hthere,
          if_neg (Nat.not_lt.mpr hshort)]
        rfl

/-! ### Writing files -/

/-- Nothing has changed but what stands at a place, and a file there is still a file. -/
structure ChangesAt (place : Place) (fs fs' : Files) : Prop where
  workDir : fs'.workDir = fs.workDir
  entries (q : Place) : q ≠ place → fs'.entry? q = fs.entry? q
  file : (fs.content? place).isSome → (fs'.content? place).isSome

namespace ChangesAt

theorem refl (place : Place) (fs : Files) : ChangesAt place fs fs :=
  ⟨rfl, fun _ _ => rfl, fun h => h⟩

theorem trans (h : ChangesAt place fs fs₁) (h' : ChangesAt place fs₁ fs') :
    ChangesAt place fs fs' where
  workDir := h'.workDir.trans h.workDir
  entries q hq := (h'.entries q hq).trans (h.entries q hq)
  file hplace := h'.file (h.file hplace)

theorem content? (h : ChangesAt place fs fs') (hq : q ≠ place) :
    fs'.content? q = fs.content? q := content?_congr (h.entries q hq)

/-- If a file stands at the place, no directory is lost. -/
theorem grows (h : ChangesAt place fs fs') (hfile : (fs.content? place).isSome) :
    Grows fs fs' where
  workDir := h.workDir
  directory q hq := by
    rw [h.entries q, hq]
    rintro rfl
    rw [Files.content?, hq] at hfile
    cases hfile
  file q hq := by
    by_cases hqp : q = place
    · exact hqp ▸ h.file hfile
    · rwa [h.content? hqp]

theorem put {entry : Entry} (h : place ≠ []) (hentry : entry ≠ .directory) :
    ChangesAt place fs (fs.put place entry) where
  workDir := rfl
  entries q hq := by rw [entry?_put h, if_neg hq]
  file _ := by
    rw [Files.content?, entry?_put h, if_pos rfl]
    cases entry with
    | directory => exact absurd rfl hentry
    | file content => rfl

end ChangesAt

/-- Only files have changed: what was there is there, and no directory is new. -/
structure OnlyFiles (fs fs' : Files) : Prop extends Grows fs fs' where
  back (place : Place) : fs'.entry? place = some .directory → fs.entry? place = some .directory

theorem OnlyFiles.refl (fs : Files) : OnlyFiles fs fs := ⟨.refl fs, fun _ h => h⟩

theorem OnlyFiles.trans (h : OnlyFiles fs fs₁) (h' : OnlyFiles fs₁ fs') : OnlyFiles fs fs' where
  toGrows := h.toGrows.trans h'.toGrows
  back place hplace := h.back place (h'.back place hplace)

/-- A file is put where no directory is. -/
theorem OnlyFiles.put (h : fs.entry? place ≠ some .directory) (content : ByteArray) :
    OnlyFiles fs (fs.put place (.file content)) where
  toGrows := .put_file h content
  back q hq := by
    rw [entry?_put (ne_nil_of_ne_directory h)] at hq
    split at hq
    · cases hq
    · exact hq

/-- To write a file changes only files. -/
theorem ChangesAt.onlyFiles (h : ChangesAt place fs fs') (hfile : (fs.content? place).isSome) :
    OnlyFiles fs fs' where
  toGrows := h.grows hfile
  back q hq := by
    by_cases hqp : q = place
    · -- a file still stands there
      have hfile' := h.file hfile
      rw [← hqp, Files.content?, hq] at hfile'
      cases hfile'
    · rwa [h.entries q hqp] at hq

theorem content?_put (h : place ≠ []) (content : ByteArray) :
    (fs.put place (.file content)).content? place = some content := by
  rw [content?, entry?_put h, if_pos rfl]

theorem ne_nil_of_content? (h : (fs.content? place).isSome) : place ≠ [] := by
  rintro rfl
  rw [content?, entry?_nil] at h
  cases h

/-- What is written at the end of a content comes behind it. -/
theorem overwrite_size (content bytes : ByteArray) :
    overwrite content content.size bytes = content ++ bytes := by
  have hgap : (⟨Array.replicate (content.size - content.size) 0⟩ : ByteArray) = .empty := by
    rw [Nat.sub_self]
    rfl
  have hrest : content.extract (content.size + bytes.size) content.size = .empty := by
    rw [ByteArray.extract_eq_empty_iff, Nat.min_self]
    exact Nat.le_add_right _ _
  rw [overwrite, hgap, hrest, ByteArray.extract_zero_size, ByteArray.append_empty,
    ByteArray.append_empty]

/-- **Writing a file** changes nothing at other places, and at its end it adds to it. -/
theorem changesAt_writeAt (h : (fs.content? place).isSome) (offset : Nat) (bytes : ByteArray) :
    ChangesAt place fs (fs.writeAt place offset bytes) :=
  .put (ne_nil_of_content? h) nofun

theorem content?_writeAt {content : ByteArray} (h : fs.content? place = some content)
    (bytes : ByteArray) :
    (fs.writeAt place content.size bytes).content? place = some (content ++ bytes) := by
  have hplace : place ≠ [] := ne_nil_of_content? (by rw [h]; rfl)
  rw [writeAt, content?_put hplace, h, Option.getD_some, overwrite_size]

/-- A text is read as it was written. -/
theorem readText_eq_ok {text : String} (hfind : fs.find path = .ok place)
    (hcontent : fs.content? place = some text.toUTF8) : fs.readText path = .ok text := by
  have hvalid : String.fromUTF8? text.toUTF8 = some text := by
    rw [String.fromUTF8?, String.toUTF8_eq_toByteArray, dif_pos text.isValidUTF8]
    rfl
  rw [readText]
  refine bind_eq_ok_iff.mpr ⟨place, hfind, ?_⟩
  simp only [hcontent, hvalid]

/-- What is read at a path depends on what stands where it leads. -/
theorem readText_congr (hfind : fs.find path = .ok place) (hfind' : fs'.find path = .ok place)
    (hcontent : fs'.content? place = fs.content? place) : fs'.readText path = fs.readText path := by
  simp only [readText, hfind, hfind', bind, Except.bind, hcontent]

/-- **A text that is saved** can be read where it stands, and nothing else has changed. -/
theorem save_eq_ok {text : String} (h : (save path text).run.run fs = (.ok (), fs')) :
    ∃ place, fs'.find path = .ok place ∧ fs'.readText path = .ok text ∧ Grows fs fs' ∧
      ∀ q, q ≠ place → fs'.content? q = fs.content? q := by
  rw [save] at h
  obtain ⟨place, fs₁, hcreate, hwrite⟩ := exists_of_run_bind_eq_ok h
  cases hwrite
  obtain ⟨hfree, rfl, hfind⟩ := create_eq_ok hcreate
  have hplace := ne_nil_of_ne_directory hfree
  have hempty : Files.content? (fs.put place (.file .empty)) place = some .empty :=
    content?_put hplace .empty
  have hchanges := changesAt_writeAt (by rw [hempty]; rfl) 0 text.toUTF8
  have hgrows := hchanges.grows (by rw [hempty]; rfl)
  have htext := content?_writeAt hempty text.toUTF8
  rw [ByteArray.empty_append] at htext
  refine ⟨place, hgrows.find hfind, readText_eq_ok (hgrows.find hfind) htext,
    (Grows.put_file hfree _).trans hgrows, fun q hq => ?_⟩
  rw [hchanges.content? hq]
  exact content?_congr ((entry?_put hplace _ q).trans (if_neg hq))

end Files

end IntentGrammar
