import IntentGrammar.Command.Generate
import IntentGrammar.Proofs.Jobs
import IntentGrammar.Proofs.Traversal

/-!
# What a command has done

A command that comes to its end has come through all its steps.  Those that only look leave
everything as it is (`Command.locate_eq_ok_iff`, `Command.graph_eq_ok_iff`), and those that act on
files change nothing else.  **To generate utterances** comes to its end just if its steps do
(`Command.generate_eq_ok_iff`).
-/

namespace IntentGrammar

namespace Command

variable {desk desk' : Desk} {fs : Files} {told : List String} {path directory : String}

/-! ### Steps of commands -/

theorem run_files_bind {α : Type} (f : Files → Command α) :
    (files >>= f).run.run desk = (f desk.files).run.run desk := rfl

theorem run_tell (line : String) :
    (tell line).run.run desk = (.ok (), { desk with told := desk.told ++ [line] }) := rfl

theorem run_tellAll (lines : List String) :
    (tellAll lines).run.run desk = (.ok (), { desk with told := desk.told ++ lines }) := rfl

theorem require_eq_ok_iff {ε α : Type} {blame : ε → CommandFault} {x : Except ε α} {a : α} :
    (require blame x).run.run desk = (.ok a, desk') ↔ x = .ok a ∧ desk' = desk := by
  rcases x with e | b
  · constructor
    · intro h
      cases h
    · rintro ⟨h, -⟩
      cases h
  · constructor
    · intro h
      cases h
      exact ⟨rfl, rfl⟩
    · rintro ⟨h, rfl⟩
      cases h
      rfl

theorem filing_eq_ok_iff {α : Type} {blame : FileFault → CommandFault} {act : Filing α} {a : α} :
    (filing blame act).run.run ⟨fs, told⟩ = (.ok a, desk') ↔
      ∃ fs', act.run.run fs = (.ok a, fs') ∧ desk' = ⟨fs', told⟩ := by
  rw [filing, run_files_bind]
  rcases act.run.run fs with ⟨fault | b, fs'⟩
  · constructor
    · intro h
      cases h
    · rintro ⟨fs', h, -⟩
      cases h
  · constructor
    · intro h
      cases h
      exact ⟨fs', rfl, rfl⟩
    · rintro ⟨fs', h, rfl⟩
      cases h
      rfl

theorem locate_eq_ok_iff :
    (locate path).run.run desk = (.ok directory, desk') ↔
      (namesGrammar path = true ∧ desk.files.isFile path = true) ∧ directory = directoryOf path ∧
        desk' = desk := by
  rw [locate]
  cases hname : namesGrammar path with
  | false =>
    constructor
    · intro h
      cases h
    · rintro ⟨⟨h, -⟩, -⟩
      cases h
  | true =>
    rw [if_neg (by decide), run_files_bind]
    cases hfile : desk.files.isFile path with
    | false =>
      constructor
      · intro h
        cases h
      · rintro ⟨⟨-, h⟩, -⟩
        cases h
    | true =>
      constructor
      · intro h
        cases h
        exact ⟨⟨rfl, rfl⟩, rfl, rfl⟩
      · rintro ⟨-, rfl, rfl⟩
        rfl

/-- To look for settings leaves everything as it is. -/
theorem eq_of_run_settings {named : Option String} {p : Project}
    (h : (settings named directory).run.run desk = (.ok p, desk')) : desk' = desk := by
  rw [settings, run_files_bind] at h
  obtain ⟨placed, d, hplaced, hend⟩ := exists_of_run_bind_eq_ok h
  obtain ⟨-, rfl⟩ := require_eq_ok_iff.mp hplaced
  exact (congrArg Prod.snd hend).symm

/-- Without a file for them the settings are the defaults. -/
theorem run_settings_of_absent
    (h : desk.files.has (Path.join directory Project.fileName) = false) :
    (settings none directory).run.run desk = (.ok {}, desk) := by
  have hdefault : Project.loadOrDefault desk.files directory = .ok ⟨{}, directory⟩ := by
    rw [Project.loadOrDefault, h]
    rfl
  rw [settings, run_files_bind]
  exact (run_bind_of_ok (require_eq_ok_iff.mpr ⟨hdefault, rfl⟩) _).trans rfl

theorem graph_eq_ok_iff {s : Settings} {g : Graph} :
    (graph path s).run.run desk = (.ok g, desk') ↔ s.fault? = none ∧
      (∃ grammar, desk.files.grammar path = .ok grammar ∧
        Graph.build grammar s.exhaustiveCeiling = .ok g) ∧ desk' = desk := by
  rw [graph]
  rcases s.fault? with _ | fault
  · have hnone : ((none : Option BadSetting).forM fun fault =>
        (throw (.refused (.settingsInvalid fault)) : Command PUnit)).run.run desk
          = (.ok ⟨⟩, desk) := rfl
    rw [run_bind_of_ok hnone]
    simp only [run_files_bind]
    constructor
    · intro h
      obtain ⟨grammar, d, hgrammar, hend⟩ := exists_of_run_bind_eq_ok h
      obtain ⟨hread, rfl⟩ := require_eq_ok_iff.mp hgrammar
      obtain ⟨hbuild, rfl⟩ := require_eq_ok_iff.mp hend
      exact ⟨trivial, ⟨grammar, hread, hbuild⟩, rfl⟩
    · rintro ⟨-, ⟨grammar, hread, hbuild⟩, rfl⟩
      rw [run_bind_of_ok (require_eq_ok_iff.mpr ⟨hread, rfl⟩)]
      exact require_eq_ok_iff.mpr ⟨hbuild, rfl⟩
  · constructor
    · intro h
      cases h
    · rintro ⟨h, -⟩
      cases h

/-! ### Generating utterances -/

section Generating

variable {o : GenerateOptions} {drawnSeed : UInt64} {arrange : List (List Batch) → List Batch}

theorem generateInto_eq_ok_iff {output : String} {gen : Generator} {p : Project}
    {c : Cancellation} {report : Report} {w : LineFiles} :
    (generateInto output gen p c arrange).run.run ⟨fs, told⟩ = (.ok (report, w), desk') ↔
      ∃ r, (gen.runOnWorkers p.workers p.settings.request Written.sink arrange).run.run
          ⟨⟨{ directory := output }, fs⟩, c⟩ = (.ok report, r) ∧
        w = r.sink.output ∧ desk' = ⟨r.sink.settled, told⟩ := by
  rw [generateInto, run_files_bind]
  dsimp only
  rcases (gen.runOnWorkers p.workers p.settings.request Written.sink arrange).run.run
    ⟨⟨{ directory := output }, fs⟩, c⟩ with ⟨fault | report', r⟩
  · constructor
    · intro h
      cases h
    · rintro ⟨r, h, -⟩
      cases h
  · constructor
    · intro h
      cases h
      exact ⟨r, rfl, rfl, rfl⟩
    · rintro ⟨r, h, rfl, rfl⟩
      cases h
      rfl

/-- A command on utterances ends well if no job has failed and nothing was cancelled. -/
theorem ending_eq_ok_iff {report : Report} {line : String} :
    (ExceptT.run (do
      if !report.failures.isEmpty then throw (.failedJobs report.failures.length)
      let _ ← require .refused report.summary.ensureComplete
      tell line : Command Unit)).run desk = (.ok (), desk') ↔
      (report.failures = [] ∧ report.summary.cancelled = false) ∧
        desk' = { desk with told := desk.told ++ [line] } := by
  cases hfailures : report.failures with
  | cons failure failures =>
    constructor
    · intro h
      cases h
    · rintro ⟨⟨h, -⟩, -⟩
      cases h
  | nil =>
    rw [if_neg (by decide), RunSummary.ensureComplete]
    cases hcancelled : report.summary.cancelled with
    | true =>
      constructor
      · intro h
        cases h
      · rintro ⟨⟨-, h⟩, -⟩
        cases h
    | false =>
      constructor
      · intro h
        cases h
        exact ⟨⟨rfl, rfl⟩, rfl⟩
      · rintro ⟨-, rfl⟩
        rfl

/-- What has been come through to generate utterances: the project and the graph for the grammar,
the run with its report, and the files when the directory is made. -/
structure Generated (path : String) (o : GenerateOptions) (drawnSeed : UInt64)
    (arrange : List (List Batch) → List Batch) (desk : Desk) (p : Project) (g : Graph)
    (report : Report) (r : Receiving Written) (made after : Files) : Prop where
  named : namesGrammar path = true
  there : desk.files.isFile path = true
  project : ∃ p₀, (settings o.settingsPath (directoryOf path)).run.run desk = (.ok p₀, desk) ∧
    p = o.override p₀
  usable : p.settings.fault? = none
  read : ∃ grammar, desk.files.grammar path = .ok grammar ∧
    Graph.build grammar p.settings.exhaustiveCeiling = .ok g
  run : (Generator.runOnWorkers ⟨g, p.settings, p.settings.seed.getD drawnSeed⟩ p.workers
      p.settings.request Written.sink arrange).run.run
        ⟨⟨{ directory := o.outputPath p path (directoryOf path) }, desk.files⟩, o.cancellation⟩
      = (.ok report, r)
  directory : (Files.makeDirectories (o.outputPath p path (directoryOf path))).run.run
    r.sink.settled = (.ok (), made)
  saved : (Files.save (Path.join (o.outputPath p path (directoryOf path)) "manifest.json")
      (report.manifest path g.contentHash).indented).run.run made = (.ok (), after)
  unfailed : report.failures = []
  complete : report.summary.cancelled = false

/-- **To generate utterances** comes to its end just if all its steps do. -/
theorem generate_eq_ok_iff {after : Files} :
    (∃ desk', (generate path o drawnSeed arrange).run.run desk = (.ok (), desk') ∧
      desk'.files = after) ↔
        ∃ p g report r made, Generated path o drawnSeed arrange desk p g report r made after := by
  constructor
  · rintro ⟨desk', h, rfl⟩
    rw [generate] at h
    obtain ⟨_, _, hlocate, h₁⟩ := exists_of_run_bind_eq_ok h
    obtain ⟨⟨hnamed, hthere⟩, rfl, rfl⟩ := locate_eq_ok_iff.mp hlocate
    obtain ⟨p₀, _, hproject, h₂⟩ := exists_of_run_bind_eq_ok h₁
    obtain rfl := eq_of_run_settings hproject
    obtain ⟨g, _, hgraph, h₃⟩ := exists_of_run_bind_eq_ok h₂
    obtain ⟨husable, hread, rfl⟩ := graph_eq_ok_iff.mp hgraph
    obtain ⟨⟨⟩, _, htell, h₄⟩ := exists_of_run_bind_eq_ok h₃
    cases htell
    obtain ⟨⟨report, w⟩, _, hinto, h₅⟩ := exists_of_run_bind_eq_ok h₄
    obtain ⟨r, hrun, -, rfl⟩ := generateInto_eq_ok_iff.mp hinto
    obtain ⟨⟨⟩, _, htold, h₆⟩ := exists_of_run_bind_eq_ok h₅
    cases htold
    obtain ⟨⟨⟩, _, hmake, h₇⟩ := exists_of_run_bind_eq_ok h₆
    obtain ⟨made, hmade, rfl⟩ := filing_eq_ok_iff.mp hmake
    obtain ⟨⟨⟩, _, hsave, h₈⟩ := exists_of_run_bind_eq_ok h₇
    obtain ⟨after', hsaved, rfl⟩ := filing_eq_ok_iff.mp hsave
    obtain ⟨⟨hunfailed, hcomplete⟩, rfl⟩ := ending_eq_ok_iff.mp h₈
    exact ⟨o.override p₀, g, report, r, made, {
      named := hnamed
      there := hthere
      project := ⟨p₀, hproject, rfl⟩
      usable := husable
      read := hread
      run := hrun
      directory := hmade
      saved := hsaved
      unfailed := hunfailed
      complete := hcomplete }⟩
  · rintro ⟨p, g, report, r, made, h⟩
    obtain ⟨p₀, hproject, rfl⟩ := h.project
    have hlocate := locate_eq_ok_iff.mpr ⟨⟨h.named, h.there⟩, rfl, rfl⟩
    have hgraph := graph_eq_ok_iff.mpr ⟨h.usable, h.read, rfl⟩
    have hending := And.intro h.unfailed h.complete
    rw [generate, run_bind_of_ok hlocate, run_bind_of_ok hproject]
    dsimp only
    rw [run_bind_of_ok hgraph]
    rw [run_bind_of_ok (run_tell _),
      run_bind_of_ok (generateInto_eq_ok_iff.mpr ⟨r, h.run, rfl, rfl⟩),
      run_bind_of_ok (run_tellAll _),
      run_bind_of_ok (filing_eq_ok_iff.mpr ⟨made, h.directory, rfl⟩),
      run_bind_of_ok (filing_eq_ok_iff.mpr ⟨after, h.saved, rfl⟩)]
    exact ⟨_, ending_eq_ok_iff.mpr ⟨hending, rfl⟩, rfl⟩

end Generating

end Command

end IntentGrammar
