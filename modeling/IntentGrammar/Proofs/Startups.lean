import IntentGrammar.Command.Start
import IntentGrammar.Proofs.Commands
import IntentGrammar.Proofs.Paths

/-!
# What starting a project does to files

A project is started in three stages: directories are made, the settings are saved, the grammar is
saved.  A run may end in front of each of the last two (`Command.Started`).  Before the settings are
saved no file has changed, and they are saved only where nothing stood.

The grammar is saved without a look at what stands there.  So a file is lost just if the run
succeeds and the path of the grammar leads to it; and if the path leads nowhere, the settings have
been saved before the run fails (**`new_projects_keep_files`**).
-/

namespace IntentGrammar

namespace Files

variable {fs fs' : Files} {place : Place} {path text : String}

/-! ### Saving a text -/

/-- A file that cannot be made leaves everything as it was. -/
theorem create_eq_error {fault : FileFault} (h : (create path).run.run fs = (.error fault, fs')) :
    fs' = fs := by
  rw [create, run_get_bind] at h
  rcases happroach : fs.approach path with reason | ⟨dir, step⟩
  · rw [happroach] at h
    exact (congrArg Prod.snd h).symm
  · rw [happroach] at h
    cases step with
    | stay => exact (congrArg Prod.snd h).symm
    | up => exact (congrArg Prod.snd h).symm
    | down name =>
      replace h : (ExceptT.run (do
          if path.toList.getLast? = some '/' || fs.entry? (dir ++ [name]) = some .directory then
            throw .isDirectory
          set (fs.put (dir ++ [name]) (.file .empty))
          return dir ++ [name] : Filing Place)).run fs = (.error fault, fs') := h
      split at h
      · exact (congrArg Prod.snd h).symm
      · cases h

/-- A text that cannot be saved leaves everything as it was. -/
theorem save_eq_error {fault : FileFault}
    (h : (save path text).run.run fs = (.error fault, fs')) :
    fs' = fs ∧ (create path).run.run fs = (.error fault, fs) := by
  rw [save] at h
  rcases hcreate : (create path).run.run fs with ⟨reason | place, made⟩
  · obtain rfl := create_eq_error hcreate
    rw [run_bind_of_error hcreate] at h
    cases h
    exact ⟨rfl, rfl⟩
  · rw [run_bind_of_ok hcreate] at h
    cases h

/-- The text of the file at a place has been saved, and all else is as it was. -/
structure Saves (fs : Files) (place : Place) (text : String) (fs' : Files) : Prop where
  free : fs.entry? place ≠ some .directory
  content : fs'.content? place = some text.toUTF8
  workDir : fs'.workDir = fs.workDir
  entries (q : Place) : q ≠ place → fs'.entry? q = fs.entry? q

theorem exists_saves (h : (save path text).run.run fs = (.ok (), fs')) :
    ∃ place, fs'.find path = .ok place ∧ fs.Saves place text fs' := by
  rw [save] at h
  obtain ⟨place, made, hcreate, hwrite⟩ := exists_of_run_bind_eq_ok h
  cases hwrite
  obtain ⟨hfree, rfl, hfind⟩ := create_eq_ok hcreate
  have hplace := ne_nil_of_ne_directory hfree
  have hempty : Files.content? (fs.put place (.file .empty)) place = some .empty :=
    content?_put hplace .empty
  have hchanges := changesAt_writeAt (by rw [hempty]; rfl) 0 text.toUTF8
  have htext := content?_writeAt hempty text.toUTF8
  rw [ByteArray.empty_append] at htext
  have hgrows := hchanges.grows (by rw [hempty]; rfl)
  refine ⟨place, hgrows.find hfind, hfree, htext, rfl, fun q hq => ?_⟩
  rw [hchanges.entries q hq, entry?_put hplace, if_neg hq]

namespace Saves

theorem content?_of_ne (h : fs.Saves place text fs') {q : Place} (hq : q ≠ place) :
    fs'.content? q = fs.content? q := content?_congr (h.entries q hq)

theorem entry?_eq (h : fs.Saves place text fs') :
    fs'.entry? place = some (.file text.toUTF8) := content?_eq_some_iff.mp h.content

theorem grows (h : fs.Saves place text fs') : Grows fs fs' where
  workDir := h.workDir
  directory q hq := by
    rw [h.entries q, hq]
    rintro rfl
    exact h.free hq
  file q hq := by
    by_cases hqp : q = place
    · rw [hqp, h.content]
      rfl
    · rwa [h.content?_of_ne hqp]

/-- If a file stood at the place before, a path leads where it led. -/
theorem grows_back (h : fs.Saves place text fs') (hfile : (fs.content? place).isSome) :
    Grows fs' fs where
  workDir := h.workDir.symm
  directory q hq := by
    rw [← h.entries q, hq]
    rintro rfl
    rw [h.entry?_eq] at hq
    cases hq
  file q hq := by
    by_cases hqp : q = place
    · rwa [hqp]
    · rwa [← h.content?_of_ne hqp]

/-- Where a path has led to nothing before, nothing stood. -/
theorem entry?_eq_none (h : fs.Saves place text fs') (hfind : fs'.find path = .ok place)
    (hnew : fs.has path = false) : fs.entry? place = none := by
  rcases hentry : fs.entry? place with _ | _ | content
  · rfl
  · exact absurd hentry h.free
  · have hfile : (fs.content? place).isSome := by
      rw [content?_eq_some_iff.mpr hentry]
      rfl
    rw [has, entryAt?, (h.grows_back hfile).find hfind] at hnew
    simp only [hentry] at hnew
    cases hnew

end Saves

/-! ### Names that are found -/

/-- Where a name in a directory is found, the directory is. -/
theorem leads_of_find_join {directory name : String} {origin : Place} (h : Path.IsName name)
    (hstart : fs.start directory = .ok origin)
    (hfind : fs.find (Path.join directory name) = .ok place) :
    ∃ base, fs.Leads directory base ∧ place = base ++ [name] := by
  obtain ⟨origin', horigin', hwalk⟩ := bind_eq_ok_iff.mp hfind
  have hsame : origin' = origin := by
    rw [(start_eq_ok horigin').2, (start_eq_ok hstart).2, Path.isAbsolute_join directory h]
  rw [hsame, Path.steps_join directory h] at hwalk
  obtain ⟨base, hbase, hdown⟩ := walk_append_eq_ok_iff.mp hwalk
  have hdirectory : fs.entry? base = some .directory := by
    simp only [walk] at hdown
    split at hdown
    · assumption
    · cases hdown
  refine ⟨base, ⟨bind_eq_ok_iff.mpr ⟨origin, hstart, ?_⟩, hdirectory⟩, walk_down hdown⟩
  rcases Path.steps_eq_lead (start_eq_ok hstart).1 with hsteps | hsteps
  · rwa [hsteps]
  · rw [hsteps]
    refine walk_append_eq_ok_iff.mpr ⟨base, hbase, ?_⟩
    simp only [walk, if_pos hdirectory]

/-- If nothing is found there, a file can be made with a name in a directory. -/
theorem exists_create_join {directory name : String} {base : Place} (h : Writable directory name)
    (hdir : fs.Leads directory base) (hfree : fs.has (Path.join directory name) = false) :
    ∃ fs', (create (Path.join directory name)).run.run fs = (.ok (base ++ [name]), fs') := by
  refine ⟨_, run_create_join h hdir fun hentry => ?_⟩
  have hfind : fs.find (Path.join directory name) = .ok (base ++ [name]) :=
    (find_join_eq_ok_iff h hdir).mpr ⟨rfl, by rw [hentry]; rfl⟩
  rw [has, entryAt?, hfind] at hfree
  simp [hentry] at hfree

end Files

namespace Command

open Files

variable {path : String} {name : Option String} {fs : Files} {told : List String}

/-! ### The stages -/

/-- A step that fails on files ends a command, with the files as the step leaves them. -/
theorem run_filing_of_error {blame : FileFault → CommandFault} {act : Filing Unit}
    {fault : FileFault} {fs' : Files} (h : act.run.run fs = (.error fault, fs')) :
    (filing blame act).run.run ⟨fs, told⟩ = (.error (blame fault), ⟨fs', told⟩) := by
  rw [filing, run_files_bind, h]
  rfl

theorem run_filing_of_ok {blame : FileFault → CommandFault} {act : Filing Unit} {fs' : Files}
    (h : act.run.run fs = (.ok (), fs')) :
    (filing blame act).run.run ⟨fs, told⟩ = (.ok (), ⟨fs', told⟩) :=
  filing_eq_ok_iff.mpr ⟨fs', h, rfl⟩

/-- The path of the settings of a new project. -/
def settingsPath (path : String) : String := Path.join path Project.fileName

/-- The path of the grammar of a new project. -/
def grammarPath (path grammar : String) : String :=
  Path.join path s!"{grammar}.{Grammar.extension}"

/-- The grammar of a new project is called so: it is given this name, or its directory has it. -/
def Names (fs : Files) (path : String) (name : Option String) (grammar : String) : Prop :=
  ∃ place, fs.find path = .ok place ∧ name.or place.getLast? = some grammar

/-- How far a project has been started. -/
inductive Started (path : String) (name : Option String) (fs : Files) :
    Except CommandFault Unit → Files → Prop
  /-- No file has been written. -/
  | refused {fault : CommandFault} {made : Files} : Extends fs made →
      Started path name fs (.error fault) made
  /-- The settings have been saved, but not the grammar. -/
  | halfway {made after : Files} {place : Place} {grammar : String} {fault : FileFault} :
      Extends fs made → Names made path name grammar → made.has (settingsPath path) = false →
      after.find (settingsPath path) = .ok place →
      made.Saves place (Project.textOfLines Project.exampleSettings) after →
      (create (grammarPath path grammar)).run.run after = (.error fault, after) →
      Started path name fs (.error (.file fault)) after
  /-- Both have been saved. -/
  | done {made saved after : Files} {place place' : Place} {grammar : String} :
      Extends fs made → Names made path name grammar → made.has (settingsPath path) = false →
      saved.find (settingsPath path) = .ok place →
      made.Saves place (Project.textOfLines Project.exampleSettings) saved →
      after.find (grammarPath path grammar) = .ok place' →
      saved.Saves place' (Project.textOfLines Project.exampleGrammar) after →
      Started path name fs (.ok ()) after

/-- What comes behind the directories. -/
theorem Started.of_extends {result : Except CommandFault Unit} {made after : Files}
    {told' : List String} (hmade : Extends fs made)
    (h : (ExceptT.run (do
        let place ← require .file ((← files).find path)
        let some name := name.or place.getLast? | throw .noName
        let settingsPath := Path.join path Project.fileName
        if (← files).has settingsPath then throw (.occupied path)
        tell s!"Creating new Phrasal project: {name}"
        filing .file (Files.save settingsPath (Project.textOfLines Project.exampleSettings))
        let grammarPath := Path.join path s!"{name}.{Grammar.extension}"
        filing .file (Files.save grammarPath (Project.textOfLines Project.exampleGrammar))
        tellAll [s!"✓ Created {Project.fileName}", s!"✓ Created {grammarPath}", "", "Next steps:",
          s!"  phrasal validate {grammarPath}", s!"  phrasal generate {grammarPath}"]
        : Command Unit)).run ⟨made, told⟩ = (result, ⟨after, told'⟩)) :
    Started path name fs result after := by
  rw [run_files_bind] at h
  rcases hfind : made.find path with fault | place
  · rw [hfind] at h
    cases h
    exact .refused hmade
  rw [hfind, run_bind_of_ok (require_eq_ok_iff.mpr ⟨rfl, rfl⟩)] at h
  rcases hname : name.or place.getLast? with _ | grammar
  · rw [hname] at h
    cases h
    exact .refused hmade
  rw [hname] at h
  simp only [run_files_bind] at h
  split at h
  · cases h
    exact .refused hmade
  next hnew =>
  rw [run_bind_of_ok (run_tell _)] at h
  rcases hsettings : (save (Path.join path Project.fileName)
    (Project.textOfLines Project.exampleSettings)).run.run made with ⟨fault | ⟨⟩, saved⟩
  · rw [run_bind_of_error (run_filing_of_error hsettings)] at h
    cases h
    obtain ⟨rfl, -⟩ := save_eq_error hsettings
    exact .refused hmade
  rw [run_bind_of_ok (run_filing_of_ok hsettings)] at h
  obtain ⟨place₁, hfind₁, hsaves₁⟩ := exists_saves hsettings
  rcases hgrammar : (save (Path.join path s!"{grammar}.{Grammar.extension}")
    (Project.textOfLines Project.exampleGrammar)).run.run saved with ⟨fault | ⟨⟩, both⟩
  · rw [run_bind_of_error (run_filing_of_error hgrammar)] at h
    cases h
    obtain ⟨rfl, hcreate⟩ := save_eq_error hgrammar
    exact .halfway hmade ⟨place, hfind, hname⟩ (Bool.eq_false_of_not_eq_true hnew) hfind₁ hsaves₁
      hcreate
  · rw [run_bind_of_ok (run_filing_of_ok hgrammar)] at h
    cases h
    obtain ⟨place₂, hfind₂, hsaves₂⟩ := exists_saves hgrammar
    exact .done hmade ⟨place, hfind, hname⟩ (Bool.eq_false_of_not_eq_true hnew) hfind₁ hsaves₁
      hfind₂ hsaves₂

/-- **A run of the command** ends in front of the settings, behind them, or behind the grammar. -/
theorem started_of_run {result : Except CommandFault Unit} {after : Files} {told' : List String}
    (h : (startProject path name).run.run ⟨fs, told⟩ = (result, ⟨after, told'⟩)) :
    Started path name fs result after := by
  rw [startProject, run_files_bind] at h
  simp only at h
  split at h
  · rcases hmake : (makeDirectories path).run.run fs with ⟨fault | ⟨⟩, made⟩
    all_goals
      have hmade := extending_makeDirectories path fs
      rw [hmake] at hmade
    · rw [run_bind_of_error (run_filing_of_error hmake)] at h
      cases h
      exact .refused hmade
    · rw [run_bind_of_ok (run_filing_of_ok hmake)] at h
      exact .of_extends hmade h
  · exact .of_extends (.refl fs) h

/-! ### What has become of the files -/

variable {result : Except CommandFault Unit} {made after : Files} {place : Place}
  {grammar grammar' : String}

theorem Names.of_grows (h : Names made path name grammar) (hgrows : Grows made after) :
    Names after path name grammar := by
  obtain ⟨place, hfind, hname⟩ := h
  exact ⟨place, hgrows.find hfind, hname⟩

theorem Names.unique (h : Names fs path name grammar) (h' : Names fs path name grammar') :
    grammar = grammar' := by
  obtain ⟨place, hfind, hname⟩ := h
  obtain ⟨place', hfind', hname'⟩ := h'
  obtain rfl : place = place' := Except.ok.inj (hfind.symm.trans hfind')
  exact Option.some.inj (hname.symm.trans hname')

theorem isName_settings : Path.IsName Project.fileName := ⟨by decide, by decide⟩

/-- The grammar does not stand where the settings stand. -/
theorem ne_of_find_grammar {place' : Place} (hsettings : place.getLast? = some Project.fileName)
    (hfind : fs.find (grammarPath path grammar) = .ok place') : place' ≠ place := by
  rintro rfl
  obtain ⟨before, hbefore⟩ := Path.exists_toList_join path s!"{grammar}.{Grammar.extension}"
  have hending : (grammarPath path grammar).toList
      = (before ++ grammar.toList) ++ ('.' :: Grammar.extension.toList) := by
    have hdot : (toString ".").toList = ['.'] := rfl
    rw [grammarPath, hbefore, String.toList_append, String.toList_append, hdot]
    simp only [toString, List.append_assoc, List.singleton_append]
  obtain ⟨last, hlast, hsuffix⟩ := exists_name_of_find (by decide) (by decide) hending hfind
  rw [hsettings] at hlast
  obtain rfl : Project.fileName = last := Option.some.inj hlast
  revert hsuffix
  decide

/-- A file that was there is as it was, unless the grammar has been saved in its place. -/
theorem Started.content?_eq (h : Started path name fs result after) {content : ByteArray}
    (hfile : fs.content? place = some content) : after.content? place = some content ∨
      result = .ok () ∧ ∃ grammar, Names after path name grammar ∧
        after.find (grammarPath path grammar) = .ok place := by
  -- the settings have been saved where nothing was
  have hsettings {made saved : Files} {place' : Place} (hmade : Extends fs made)
      (hnew : made.has (settingsPath path) = false)
      (hfind : saved.find (settingsPath path) = .ok place')
      (hsaves : made.Saves place' (Project.textOfLines Project.exampleSettings) saved) :
      saved.content? place = some content := by
    rw [← hmade.content? place] at hfile
    rw [hsaves.content?_of_ne]
    · exact hfile
    · rintro rfl
      rw [content?, hsaves.entry?_eq_none hfind hnew] at hfile
      cases hfile
  cases h with
  | refused hmade => exact .inl ((hmade.content? place).trans hfile)
  | halfway hmade _ hnew hfind hsaves _ => exact .inl (hsettings hmade hnew hfind hsaves)
  | @done _ _ _ _ place' grammar hmade hnames hnew hfind hsaves hfind' hsaves' =>
    by_cases hplace : place = place'
    · exact .inr ⟨rfl, grammar, hnames.of_grows (hsaves.grows.trans hsaves'.grows),
        hplace ▸ hfind'⟩
    · exact .inl ((hsaves'.content?_of_ne hplace).trans (hsettings hmade hnew hfind hsaves))

/-- What has become of the files if a project could not be started: all are as they were, or the
settings are new and there is no way to save the grammar. -/
theorem Started.of_error {fault : CommandFault}
    (h : Started path name fs (.error fault) after) :
    (∀ q, after.content? q = fs.content? q) ∨
      ∃ place grammar reason, Names after path name grammar ∧
        fs.content? place = none ∧ after.find (settingsPath path) = .ok place ∧
        (∀ q, q ≠ place → after.content? q = fs.content? q) ∧ fault = .file reason ∧
        (create (grammarPath path grammar)).run.run after = (.error reason, after) := by
  cases h with
  | refused hmade => exact .inl hmade.content?
  | @halfway made _ place grammar reason hmade hnames hnew hfind hsaves hcreate =>
    refine .inr ⟨place, grammar, reason, hnames.of_grows hsaves.grows, ?_, hfind,
      fun q hq => (hsaves.content?_of_ne hq).trans (hmade.content? q), rfl, hcreate⟩
    rw [← hmade.content? place, content?, hsaves.entry?_eq_none hfind hnew]

/-- A project that has been started has its settings and its grammar, and no other file has
changed. -/
theorem Started.of_ok (h : Started path name fs (.ok ()) after) :
    ∃ place place' grammar, Names after path name grammar ∧ fs.content? place = none ∧
      after.find (settingsPath path) = .ok place ∧
      after.content? place = some (Project.textOfLines Project.exampleSettings).toUTF8 ∧
      after.find (grammarPath path grammar) = .ok place' ∧
      after.content? place' = some (Project.textOfLines Project.exampleGrammar).toUTF8 ∧
      ∀ q, q ≠ place → q ≠ place' → after.content? q = fs.content? q := by
  cases h with
  | @done made saved _ place place' grammar hmade hnames hnew hfind hsaves hfind' hsaves' =>
    have hlast : place.getLast? = some Project.fileName := by
      obtain ⟨-, base, -, -, rfl⟩ := find_join isName_settings hfind
      exact List.getLast?_concat
    have hne : place' ≠ place := ne_of_find_grammar hlast hfind'
    refine ⟨place, place', grammar, hnames.of_grows (hsaves.grows.trans hsaves'.grows), ?_,
      hsaves'.grows.find hfind, ?_, hfind', hsaves'.content, fun q hq hq' => ?_⟩
    · rw [← hmade.content? place, content?, hsaves.entry?_eq_none hfind hnew]
    · rw [hsaves'.content?_of_ne hne.symm, hsaves.content]
    · rw [hsaves'.content?_of_ne hq', hsaves.content?_of_ne hq, hmade.content? q]

/-- If nothing has the name of the grammar and a file can be given it, nothing is left of a start
that fails. -/
theorem Started.of_writable {fault : CommandFault}
    (h : Started path name fs (.error fault) after) (hnames : Names after path name grammar)
    (hname : Writable path s!"{grammar}.{Grammar.extension}")
    (hfree : after.has (grammarPath path grammar) = false) (q : Place) :
    after.content? q = fs.content? q := by
  rcases h.of_error with hsame | ⟨place, grammar', reason, hnames', -, hfind, -, -, hcreate⟩
  · exact hsame q
  · obtain rfl := hnames.unique hnames'
    obtain ⟨base', hbase', -⟩ := hnames
    obtain ⟨origin, horigin, -⟩ := bind_eq_ok_iff.mp hbase'
    obtain ⟨base, hbase, -⟩ := leads_of_find_join isName_settings horigin hfind
    obtain ⟨fs', hmakes⟩ := exists_create_join hname hbase hfree
    cases hcreate.symm.trans hmakes

end Command

/-! ### The theorem -/

open Command Files in
/-- **A new project keeps files.**  A file that is there is lost only if the project is started and
its grammar is saved in the place of the file.  If the project is started, it has its settings and
its grammar, and no other file has changed.  If it is not, all files are as they were, or only the
settings are new since there is no way to save the grammar; there is one if nothing stands in its
place and a file can be given its name. -/
theorem new_projects_keep_files {path : String} {name : Option String} {desk : Desk}
    {result : Except CommandFault Unit} {after : Files} {told : List String}
    (hrun : (startProject path name).run.run desk = (result, ⟨after, told⟩)) :
    (∀ place content, desk.files.content? place = some content →
      after.content? place = some content ∨ result = .ok () ∧
        ∃ grammar, Names after path name grammar ∧
          after.find (grammarPath path grammar) = .ok place) ∧
    (result = .ok () → ∃ place place' grammar, Names after path name grammar ∧
      desk.files.content? place = none ∧ after.find (settingsPath path) = .ok place ∧
      after.content? place = some (Project.textOfLines Project.exampleSettings).toUTF8 ∧
      after.find (grammarPath path grammar) = .ok place' ∧
      after.content? place' = some (Project.textOfLines Project.exampleGrammar).toUTF8 ∧
      ∀ q, q ≠ place → q ≠ place' → after.content? q = desk.files.content? q) ∧
    ∀ fault, result = .error fault →
      ((∀ q, after.content? q = desk.files.content? q) ∨
        ∃ place grammar reason, Names after path name grammar ∧
          desk.files.content? place = none ∧ after.find (settingsPath path) = .ok place ∧
          (∀ q, q ≠ place → after.content? q = desk.files.content? q) ∧ fault = .file reason ∧
          (create (grammarPath path grammar)).run.run after = (.error reason, after)) ∧
      ∀ grammar, Names after path name grammar →
        Writable path s!"{grammar}.{Grammar.extension}" →
        after.has (grammarPath path grammar) = false →
        ∀ q, after.content? q = desk.files.content? q := by
  have hstarted : Started path name desk.files result after := started_of_run hrun
  refine ⟨fun place content hfile => hstarted.content?_eq hfile, ?_, ?_⟩
  · rintro rfl
    exact hstarted.of_ok
  · rintro fault rfl
    exact ⟨hstarted.of_error, fun grammar hnames hname hfree q =>
      hstarted.of_writable hnames hname hfree q⟩

/-- A directory with a grammar in it that has its name. -/
def Files.drafts : Files :=
  ⟨[(["p"], .directory), (["p", "p.phrasal"], .file "old".toUTF8)], []⟩

/-- The draft outlasts a start that fails because a directory is missing. -/
theorem draft_is_kept : ∃ result desk',
    (Command.startProject "p" (some "no/dir")).run.run ⟨.drafts, []⟩ = (result, desk') ∧
    result = .error (.file .notFound) ∧
    Files.drafts.content? ["p", "p.phrasal"] = some "old".toUTF8 ∧
    desk'.files.content? ["p", "p.phrasal"] = some "old".toUTF8 := by
  obtain ⟨result, ⟨after, told⟩, hrun⟩ : ∃ result desk',
      (Command.startProject "p" (some "no/dir")).run.run ⟨.drafts, []⟩ = (result, desk') :=
    ⟨_, _, rfl⟩
  have hresult : result = .error (.file .notFound) := (congrArg Prod.fst hrun).symm
  have hdraft : Files.drafts.content? ["p", "p.phrasal"] = some "old".toUTF8 := by decide +kernel
  obtain ⟨hkeeps, -, -⟩ := new_projects_keep_files hrun
  refine ⟨result, _, hrun, hresult, hdraft, ?_⟩
  rcases hkeeps _ _ hdraft with hkept | ⟨hok, -⟩
  · exact hkept
  · rw [hresult] at hok
    cases hok

/-- **A draft is lost**, and settings are left behind: the project that is started in the directory
gets its grammar in the place of the draft, and one whose name asks for a missing directory fails
when it has its settings. -/
theorem draft_is_lost :
    (((Command.startProject "p" none).run.run ⟨.drafts, []⟩).1 = .ok () ∧
      Files.drafts.content? ["p", "p.phrasal"] = some "old".toUTF8 ∧
      ((Command.startProject "p" none).run.run ⟨.drafts, []⟩).2.files.content? ["p", "p.phrasal"]
        ≠ some "old".toUTF8) ∧
    (((Command.startProject "p" (some "no/dir")).run.run ⟨.drafts, []⟩).1
        = .error (.file .notFound) ∧
      Files.drafts.content? ["p", "phrasal.yaml"] = none ∧
      ((Command.startProject "p" (some "no/dir")).run.run ⟨.drafts, []⟩).2.files.content?
        ["p", "phrasal.yaml"] ≠ none) := by
  refine ⟨⟨rfl, ?_, ?_⟩, rfl, ?_, ?_⟩
  all_goals decide +kernel

end IntentGrammar
