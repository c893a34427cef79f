import IntentGrammar.Proofs.Commands
import IntentGrammar.Proofs.Filings
import IntentGrammar.Proofs.JsonLines
import IntentGrammar.Proofs.Readings

/-!
# What a manifest says of the files

A manifest lists the intents of the grammar with the numbers of their utterances.  When the command
that generates them has come to its end, nothing was cancelled, and so each intent has been
delivered whole, in whatever order the batches came.  A file that was made for an intent and a part
then has just the lines that the manifest says, and no text is in both files of an intent
(**`manifest_counts_lines`**).

For a part without utterances no file is made.  One that was left there by an earlier run stays as
it is, whatever the manifest says (`stale_lines_stay`).
-/

namespace IntentGrammar

open Files LineFiles

/-! ### The intents of a grammar -/

section Intents

variable {g : Grammar} {ceiling : Nat} {graph : Graph}

theorem keys_intents_of_build (h : Graph.build g ceiling = .ok graph) :
    graph.intents.map (fun v => (graph.node v).key) = g.intents.map (·.key) := by
  have hkeys := (mirrors_of_build h).map_key
  have hnodes : graph.network.toList = (List.finRange graph.size).map graph.node := by
    apply List.ext_getElem
    · simp
    · intro i hi hi'
      simp [Graph.node, Vector.get_eq_getElem]
  rw [hnodes, List.map_map] at hkeys
  have hfiltered := congrArg (List.filter fun k => k.kind = .intent) hkeys
  rw [List.filter_map, List.filter_map] at hfiltered
  exact hfiltered

/-- The intents of a sound grammar have different names. -/
theorem Grammar.Sound.nodup_names (hg : g.Sound) : (g.intents.map (·.key.name)).Nodup := by
  have hkeys : (g.intents.map (·.key)).Nodup :=
    hg.distinct.sublist (List.filter_sublist.map _)
  refine (List.Nodup.of_map _ hkeys).map_on ?_
  intro d hd e he hname
  obtain ⟨hd, hkind⟩ := List.mem_filter.mp hd
  obtain ⟨he, hkind'⟩ := List.mem_filter.mp he
  have hd' := (hg.definitions d hd).header.intent (of_decide_eq_true hkind)
  have he' := (hg.definitions e he).header.intent (of_decide_eq_true hkind')
  apply hg.distinct.eq_of_key hd he
  rw [Key.mk.injEq]
  exact ⟨(of_decide_eq_true hkind).trans (of_decide_eq_true hkind').symm, hname, hd'.trans he'.symm⟩

theorem Files.sound_of_grammar {fs : Files} {path : String} (h : fs.grammar path = .ok g) :
    g.Sound := by
  obtain ⟨text, -, hread⟩ := bind_eq_ok_iff.mp h
  exact sound_of_read (mapError_eq_ok_iff.mp hread)

end Intents

/-! ### What is delivered for a plan -/

namespace Generator

variable {gen : Generator} {request : Request} {plans : List (Plan gen.graph)}
  {plan : Plan gen.graph} {log : List Batch}

/-- There is a plan for each intent of the grammar. -/
theorem names_of_plans {g : Grammar} {ceiling : Nat}
    (hbuild : Graph.build g ceiling = .ok gen.graph) (h : gen.plans request = .ok plans) :
    plans.map (·.name) = g.intents.map (·.key.name) := by
  have hkeys := congrArg (List.map Key.name) (keys_intents_of_build hbuild)
  rw [List.map_map, List.map_map] at hkeys
  exact (names_of_plans_eq_ok h).trans hkeys

theorem intents_summarise (plans : List (Plan gen.graph)) :
    (gen.summarise (plans.map gen.fullHarvest)).intents.map (·.intent) = plans.map (·.name) := by
  show (((plans.map gen.fullHarvest).map Harvest.summary).map (·.intent)) = _
  rw [List.map_map, List.map_map]
  rfl

/-- In whatever order the batches come, for an intent is delivered what its plan comes to. -/
theorem delivered_of_interleaves (hnames : (plans.map (·.name)).Nodup)
    (hlog : Interleaves (plans.map (gen.fullBatches true)) log) (hplan : plan ∈ plans)
    (part : Part) :
    delivered log plan.name part = utterancesOf part (gen.outcome plan .never).1 := by
  rw [delivered, hlog.filter_eq (apart_fullBatches hnames), ← List.flatMap_def,
    filter_flatMap_eq (gen.fullBatches true) Batch.intent (·.name)
      (fun _ _ _ hb => intent_of_mem_fullBatches hb) hnames hplan]
  exact ofPart_batches part

theorem utterances_ne_nil_of_mem_fullBatches {b : Batch} (hb : b ∈ gen.fullBatches true plan) :
    b.utterances ≠ [] := by
  obtain ⟨e', hhands, -⟩ :=
    (gen.emitter plan true).exists_hands_handed (gen.fullHarvest plan).yielded
  exact hhands.nonempty b hb

/-- No text comes twice. -/
theorem nodup_text_outcome (plan : Plan gen.graph) :
    ((gen.outcome plan .never).1.map fun x => Utterance.text x.2).Nodup := by
  have htake := (nodup_text_novelties (gen.material plan)).sublist
    ((List.take_sublist plan.target _).map Utterance.text)
  rwa [← utterances_outcome, List.map_map] at htake

end Generator

theorem text_ne_of_nodup {xs : List Labelled} (h : (xs.map fun x => Utterance.text x.2).Nodup)
    {u v : Utterance} (hu : u ∈ utterancesOf .training xs) (hv : v ∈ utterancesOf .testing xs) :
    u.text ≠ v.text := by
  obtain ⟨x, hx, rfl⟩ := List.mem_map.mp hu
  obtain ⟨y, hy, rfl⟩ := List.mem_map.mp hv
  obtain ⟨hx, htraining⟩ := List.mem_filter.mp hx
  obtain ⟨hy, htesting⟩ := List.mem_filter.mp hy
  intro hsame
  obtain rfl := List.inj_on_of_nodup_map h hx hy hsame
  have hpart := (of_decide_eq_true htraining).symm.trans (of_decide_eq_true htesting)
  cases hpart

/-! ### Lines of files -/

/-- The number of lines in the file at a path; a file that is missing has none. -/
def Files.lineCount (fs : Files) (path : String) : Nat :=
  match fs.readText path with
  | .ok text => (textLines text).length
  | .error _ => 0

namespace Files

variable {fs : Files} {path : String}

theorem lineCount_of_readText {us : List Utterance}
    (h : fs.readText path = .ok (linesText us)) : fs.lineCount path = us.length := by
  rw [lineCount, h]
  show (textLines (linesText us)).length = _
  rw [textLines_linesText, List.length_map]

theorem lineCount_of_absent (h : ∀ place, fs.find path = .ok place → fs.content? place = none) :
    fs.lineCount path = 0 := by
  rw [lineCount]
  rcases hread : fs.readText path with fault | text
  · rfl
  · obtain ⟨place, hfind, hcontent⟩ := bind_eq_ok_iff.mp hread
    rw [h place hfind] at hcontent
    cases hcontent

end Files

/-! ### What stands on disk -/

/-- The number of utterances for a part. -/
def IntentSummary.count (s : IntentSummary) : Part → Nat
  | .training => s.training
  | .testing => s.testing

theorem Harvest.count_summary {g : Graph} (h : Harvest g) (part : Part) :
    h.summary.count part = (utterancesOf part h.yielded).length := by
  cases part with
  | training => rfl
  | testing => rfl

/-- What stands in the files of an intent for which there are utterances.  No text is in two of
them, and a file for a part without utterances is as it was before. -/
structure IntentSummary.OnDisk (s : IntentSummary) (output : String) (before after : Files)
    (us : Part → List Utterance) : Prop where
  count (part : Part) : (us part).length = s.count part
  lines (part : Part) : us part ≠ [] →
    after.readText (pathIn output (s.intent, part)) = .ok (linesText (us part))
  left (part : Part) : us part = [] →
    ∀ place, after.find (pathIn output (s.intent, part)) = .ok place →
      after.content? place = before.content? place
  apart : ∀ u ∈ us .training, ∀ v ∈ us .testing, u.text ≠ v.text

/-- The file for a part has as many lines as there are utterances, if there are any or no file was
there before. -/
theorem IntentSummary.OnDisk.lineCount_eq {s : IntentSummary} {output : String}
    {before after : Files} {us : Part → List Utterance} (h : s.OnDisk output before after us)
    {part : Part} (hfresh : s.count part = 0 →
      ∀ place, after.find (pathIn output (s.intent, part)) = .ok place →
        before.content? place = none) :
    after.lineCount (pathIn output (s.intent, part)) = s.count part := by
  rw [← h.count part] at hfresh ⊢
  by_cases hnone : us part = []
  · rw [hnone] at hfresh ⊢
    apply lineCount_of_absent
    intro place hfind
    rw [h.left part hnone place hfind]
    exact hfresh rfl place hfind
  · exact lineCount_of_readText (h.lines part hnone)

section Disk

variable {output : String} {before fs after : Files} {log : List Batch} {intents : List String}

/-- A batch for an intent and a part, and only that, adds to what is delivered for them. -/
theorem delivered_ne_nil_iff {intent : String} {part : Part} (hlog : ∀ b ∈ log, b.utterances ≠ []) :
    delivered log intent part ≠ [] ↔ ∃ b ∈ log, (b.intent, b.part) = (intent, part) := by
  constructor
  · intro hsome
    by_contra hnone
    push Not at hnone
    exact hsome (delivered_eq_nil hnone)
  · rintro ⟨b, hb, hkey⟩ hnone
    obtain ⟨rfl, rfl⟩ := Prod.mk.inj hkey
    rw [delivered, ofPart, List.flatMap_eq_nil_iff] at hnone
    apply hlog b hb
    apply hnone
    simp [hb]

/-- Files that have been filed stand on disk when more files have been added elsewhere. -/
theorem IntentSummary.onDisk_of_filed {s : IntentSummary} (hfiled : Filed output before log fs)
    (hgrows : Grows fs after)
    (hsame : ∀ key place, after.find (pathIn output key) = .ok place →
      after.content? place = fs.content? place)
    (hlog : ∀ b ∈ log, b.intent ∈ intents ∧ b.utterances ≠ [])
    (hdistinct : DistinctFiles after output intents) (hs : s.intent ∈ intents)
    (hcount : ∀ part, (delivered log s.intent part).length = s.count part)
    (hapart : ∀ u ∈ delivered log s.intent .training, ∀ v ∈ delivered log s.intent .testing,
      u.text ≠ v.text) : s.OnDisk output before after (delivered log s.intent) where
  count := hcount
  apart := hapart
  lines part hsome := by
    rw [delivered_ne_nil_iff fun b hb => (hlog b hb).2] at hsome
    exact (hfiled.later hgrows (fun b hb => (hlog b hb).1) hdistinct hs
      (hsame (s.intent, part))).1 hsome
  left part hnone := by
    apply (hfiled.later hgrows (fun b hb => (hlog b hb).1) hdistinct hs
      (hsame (s.intent, part))).2
    intro b hb hkey
    exact (delivered_ne_nil_iff fun b hb => (hlog b hb).2).mpr ⟨b, hb, hkey⟩ hnone

end Disk

/-! ### What a command has left -/

/-- The sink that writes files never cancels a run. -/
theorem Written.plain_sink : Written.sink.Plain := by
  intro b w
  simp only [sink]
  split
  · intro h
    cases h
  · intro h
    cases h

/-- The manifest is none of the files of utterances. -/
theorem Files.find_ne_find_manifest {fs : Files} {output : String} {key : String × Part}
    {place manifest : Place} (hfind : fs.find (pathIn output key) = .ok place)
    (hmanifest : fs.find (Path.join output "manifest.json") = .ok manifest) : place ≠ manifest := by
  obtain ⟨before, hjoin⟩ := Path.exists_toList_join output (fileName key.1 key.2)
  obtain ⟨behind, hname, -, hslash⟩ := exists_toList_fileName key.1 key.2
  have hpath : (pathIn output key).toList = (before ++ key.1.toList ++ behind) ++ ending := by
    rw [List.append_assoc, List.append_assoc, ← hname]
    exact hjoin
  have hnot : '/' ∉ ending := fun h => hslash (List.mem_append_right _ h)
  -- the names of all files of utterances have an ending that the name of the manifest has not
  obtain ⟨name, hlast, hends⟩ := exists_name_of_find hnot (by decide) hpath hfind
  obtain ⟨-, base, -, -, rfl⟩ := find_join ⟨by decide, by decide⟩ hmanifest
  rintro rfl
  rw [List.getLast?_concat] at hlast
  cases hlast
  exact absurd hends (by decide)

namespace Command.Generated

variable {path : String} {o : GenerateOptions} {drawnSeed : UInt64}
  {arrange : List (List Batch) → List Batch} {desk : Desk} {p : Project} {graph : Graph}
  {report : Report} {r : Receiving Written} {made after : Files}

/-- All that the plans come to has been delivered and filed. -/
theorem exists_filed (h : Generated path o drawnSeed arrange desk p graph report r made after) :
    let gen : Generator := ⟨graph, p.settings, p.settings.seed.getD drawnSeed⟩
    ∃ plans, gen.plans p.settings.request = .ok plans ∧
      report = ⟨gen.summarise (plans.map gen.fullHarvest), []⟩ ∧
      Grows desk.files r.sink.settled ∧
      Filed (o.outputPath p path (directoryOf path)) desk.files
        (arrange (plans.map (gen.fullBatches true))) r.sink.settled := by
  intro gen
  obtain ⟨plans, hs, hplans, hmap, hfull, rfl, htakes, hclose⟩ :=
    Generator.runOnWorkers_eq_ok Written.plain_sink h.run
  -- nothing was cancelled, so each job came to all of its plan
  have hall : hs = plans.map gen.fullHarvest := by
    rw [← hmap, List.map_map]
    refine (List.map_id hs).symm.trans (List.map_congr_left fun i hi => ?_)
    exact hfull i hi (by simpa using List.any_eq_false.mp h.complete i hi)
  have hbatches : hs.map (gen.batches true) = plans.map (gen.fullBatches true) := by
    rw [hall, List.map_map]
    rfl
  rw [hbatches] at htakes hclose
  obtain ⟨w, fs, hafter, htracks⟩ := (tracks_nothing _ _).takes htakes
  obtain ⟨w', fs', hclose', honly, hfiled⟩ := htracks.filed
  rw [hafter, hclose'] at hclose
  -- the sink has been closed, so nothing is held back any more
  have hsettled := Written.settled_close ⟨w, fs⟩
  rw [hclose'] at hsettled
  refine ⟨plans, hplans, by rw [hall], ?_⟩
  rw [← (Prod.mk.inj hclose).2, hsettled]
  exact ⟨htracks.grows.trans honly.toGrows, hfiled⟩

/-- Since then only the manifest has been written. -/
theorem exists_manifest (h : Generated path o drawnSeed arrange desk p graph report r made after) :
    after.readText (Path.join (o.outputPath p path (directoryOf path)) "manifest.json")
        = .ok (report.manifest path graph.contentHash).indented ∧
      Grows r.sink.settled after ∧
      ∀ key place, after.find (pathIn (o.outputPath p path (directoryOf path)) key) = .ok place →
        after.content? place = r.sink.settled.content? place := by
  have hextends : Extends r.sink.settled made := by
    have hall := extending_makeDirectories (o.outputPath p path (directoryOf path)) r.sink.settled
    rwa [h.directory] at hall
  obtain ⟨manifest, hfind, htext, hgrows, hothers⟩ := save_eq_ok h.saved
  refine ⟨htext, hextends.grows.trans hgrows, fun key place hkey => ?_⟩
  rw [hothers place (find_ne_find_manifest hkey hfind), hextends.content? place]

/-- Nothing that was there is lost. -/
theorem grows (h : Generated path o drawnSeed arrange desk p graph report r made after) :
    Grows desk.files after := by
  obtain ⟨-, -, -, hgrows, -⟩ := h.exists_filed
  exact hgrows.trans h.exists_manifest.2.1

/-- **The files of each intent** hold what its plan comes to, if no two of them have one place. -/
theorem onDisk (h : Generated path o drawnSeed arrange desk p graph report r made after)
    (harrange : ∀ lists, Interleaves lists (arrange lists)) {g : Grammar} (hg : g.Sound)
    (hbuild : Graph.build g p.settings.exhaustiveCeiling = .ok graph)
    (hdistinct : DistinctFiles after (o.outputPath p path (directoryOf path))
      (g.intents.map (·.key.name))) :
    let gen : Generator := ⟨graph, p.settings, p.settings.seed.getD drawnSeed⟩
    ∀ plans, gen.plans p.settings.request = .ok plans → ∀ plan ∈ plans,
      (gen.fullHarvest plan).summary.OnDisk (o.outputPath p path (directoryOf path)) desk.files
        after fun part => utterancesOf part (gen.fullHarvest plan).yielded := by
  intro gen plans hplans plan hplan
  obtain ⟨plans', hplans', -, -, hfiled⟩ := h.exists_filed
  obtain rfl : plans = plans' := Except.ok.inj (hplans.symm.trans hplans')
  obtain ⟨-, hgrows, hsame⟩ := h.exists_manifest
  have hnames := Generator.names_of_plans hbuild hplans
  have hnodup : (plans.map (·.name)).Nodup := hnames ▸ hg.nodup_names
  have hlog := harrange (plans.map (gen.fullBatches true))
  have hdelivered : delivered (arrange (plans.map (gen.fullBatches true))) plan.name
      = fun part => utterancesOf part (gen.fullHarvest plan).yielded :=
    funext fun part => Generator.delivered_of_interleaves hnodup hlog hplan part
  rw [← hnames] at hdistinct
  rw [← hdelivered]
  refine IntentSummary.onDisk_of_filed hfiled hgrows hsame ?_ hdistinct ?_ ?_ ?_
  · intro b hb
    obtain ⟨batches, hbatches, hb⟩ := List.mem_flatten.mp (hlog.perm.mem_iff.mp hb)
    obtain ⟨plan', hplan', rfl⟩ := List.mem_map.mp hbatches
    refine ⟨?_, Generator.utterances_ne_nil_of_mem_fullBatches hb⟩
    rw [Generator.intent_of_mem_fullBatches hb]
    exact List.mem_map_of_mem hplan'
  · exact List.mem_map_of_mem hplan
  · intro part
    rw [Harvest.count_summary]
    exact congrArg List.length (congrFun hdelivered part)
  · have hapart := Generator.nodup_text_outcome plan
    intro u hu v hv
    exact text_ne_of_nodup hapart (congrFun hdelivered .training ▸ hu)
      (congrFun hdelivered .testing ▸ hv)

/-- **A command succeeds** in a directory that is there, if its files can be made in it. -/
theorem exists_of_writable {g : Grammar} {base : Place} (hnamed : namesGrammar path = true)
    (hthere : desk.files.isFile path = true)
    (hproject : ∃ p₀, (settings o.settingsPath (directoryOf path)).run.run desk = (.ok p₀, desk) ∧
      p = o.override p₀)
    (husable : p.settings.fault? = none) (hworkers : p.workers.fault? = none)
    (hsetUp : p.workers.setUp = .ok ()) (htimeout : o.timeout = none)
    (hread : desk.files.grammar path = .ok g)
    (hbuild : Graph.build g p.settings.exhaustiveCeiling = .ok graph)
    (hdir : desk.files.Leads (o.outputPath p path (directoryOf path)) base)
    (hmanifest : Writable (o.outputPath p path (directoryOf path)) "manifest.json" ∧
      desk.files.entry? (base ++ ["manifest.json"]) ≠ some .directory) :
    let gen : Generator := ⟨graph, p.settings, p.settings.seed.getD drawnSeed⟩
    ∀ plans, gen.plans p.settings.request = .ok plans →
      (∀ b ∈ arrange (plans.map (gen.fullBatches true)),
        Writable (o.outputPath p path (directoryOf path)) (fileName b.intent b.part) ∧
          desk.files.entry? (base ++ [fileName b.intent b.part]) ≠ some .directory) →
      ∃ r made after, Generated path o drawnSeed arrange desk p graph
        ⟨gen.summarise (plans.map gen.fullHarvest), []⟩ r made after := by
  intro gen plans hplans hfiles
  -- only files have changed when the sink is closed, so the directory is there for the manifest
  obtain ⟨htakes, honly⟩ := (tracks_nothing _ _).takes_of_writable hdir hfiles
  obtain ⟨w, fs, hafter, htracks⟩ := (tracks_nothing _ _).takes htakes
  obtain ⟨w', fs', hclose, honly', -⟩ := htracks.filed
  rw [hafter] at honly
  rw [← hafter] at hclose
  have hall := honly.trans honly'
  have hdir' := hdir.of_grows hall.toGrows
  have hsettled := Written.settled_close ⟨w, fs⟩
  rw [← hafter, hclose] at hsettled
  have hcancellation : o.cancellation = .never := by rw [GenerateOptions.cancellation, htimeout]
  obtain ⟨after, hsave⟩ := exists_run_save_join hmanifest.1 hdir'
    (fun hmade => hmanifest.2 (hall.back _ hmade))
    ((Report.mk (gen.summarise (plans.map gen.fullHarvest)) []).manifest path
      graph.contentHash).indented
  refine ⟨⟨⟨w', fs'⟩, .never⟩, fs', after, {
    named := hnamed
    there := hthere
    project := hproject
    usable := husable
    read := ⟨g, hread, hbuild⟩
    run := ?_
    directory := ?_
    saved := hsave
    unfailed := rfl
    complete := ?_ }⟩
  · rw [hcancellation]
    exact Generator.runOnWorkers_of_takes hworkers hsetUp arrange hplans htakes hclose
  · rw [hsettled]
    exact hdir'.run_makeDirectories
  · show (plans.map gen.fullHarvest).any (·.cancelled) = false
    rw [List.any_map]
    exact List.any_eq_false.mpr fun _ _ => Bool.false_ne_true

end Command.Generated

/-! ### A grammar in the directory of the command -/

/-- A directory with nothing but files, one of them with the text of a grammar, and no settings. -/
structure Files.Holds (fs : Files) (text : String) : Prop where
  workDir : fs.workDir = []
  text : fs.content? ["a.phrasal"] = some text.toUTF8
  settings : fs.entry? ["phrasal.yaml"] = none
  flat (name : String) : fs.entry? [name] ≠ some .directory

/-- The options that name the directory of the command for the output. -/
def GenerateOptions.here : GenerateOptions := { outputDir := some "." }

/-- The command succeeds where the grammar stands, if its intents can give names to files. -/
theorem Files.Holds.exists_generated {fs : Files} {text : String} (h : fs.Holds text) {g : Grammar}
    {graph : Graph} {seed : UInt64} (hread : Grammar.read text = .ok g)
    (hbuild : Graph.build g 10000 = .ok graph) {plans : List (Plan graph)}
    (hplans : Generator.plans ⟨graph, {}, seed⟩ {} = .ok plans)
    (hnames : ∀ plan ∈ plans, ∀ part, Writable "." (fileName plan.name part)) :
    let gen : Generator := ⟨graph, {}, seed⟩
    ∃ r made after, Command.Generated "./a.phrasal" .here seed List.flatten ⟨fs, []⟩ {} graph
      ⟨gen.summarise (plans.map gen.fullHarvest), []⟩ r made after := by
  intro gen
  have hdir := leads_here h.workDir
  have hpath : Path.join "." "a.phrasal" = "./a.phrasal" := by decide
  have hgrammar : Writable "." "a.phrasal" :=
    ⟨⟨by decide, by decide⟩, by decide, by decide, by decide⟩
  have hentry := content?_eq_some_iff.mp h.text
  have hfind : fs.find "./a.phrasal" = .ok ["a.phrasal"] := by
    rw [← hpath, find_join_eq_ok_iff hgrammar hdir]
    refine ⟨rfl, ?_⟩
    show (fs.entry? ["a.phrasal"]).isSome = true
    rw [hentry]
    rfl
  have hsettings : fs.has (Path.join "." Project.fileName) = false :=
    has_join_of_none ⟨⟨by decide, by decide⟩, by decide, by decide, by decide⟩ hdir h.settings
  have hdirectory : Command.directoryOf "./a.phrasal" = "." := by cbv
  have hproject : ∃ p₀, (Command.settings GenerateOptions.here.settingsPath
      (Command.directoryOf "./a.phrasal")).run.run ⟨fs, []⟩ = (.ok p₀, ⟨fs, []⟩) ∧
        ({} : Project) = GenerateOptions.here.override p₀ := by
    rw [hdirectory]
    exact ⟨{}, Command.run_settings_of_absent hsettings, rfl⟩
  have houtput : GenerateOptions.here.outputPath {} "./a.phrasal"
      (Command.directoryOf "./a.phrasal") = "." := rfl
  have hmanifest : Writable "." "manifest.json" :=
    ⟨⟨by decide, by decide⟩, by decide, by decide, by decide⟩
  rw [← houtput] at hdir hmanifest hnames
  refine Command.Generated.exists_of_writable (by decide) ?_ hproject (by decide +kernel)
    (by decide) rfl rfl ?_ hbuild hdir ⟨hmanifest, h.flat _⟩ plans hplans ?_
  · simp only [isFile, entryAt?, hfind, hentry]
  · show fs.grammar "./a.phrasal" = .ok g
    refine bind_eq_ok_iff.mpr ⟨text, ?_, ?_⟩
    · rw [Files.text, readText_eq_ok hfind h.text]
      rfl
    · rw [hread]
      rfl
  · intro b hb
    obtain ⟨batches, hbatches, hb⟩ := List.mem_flatten.mp hb
    obtain ⟨plan, hplan, rfl⟩ := List.mem_map.mp hbatches
    rw [Generator.intent_of_mem_fullBatches hb]
    exact ⟨hnames plan hplan b.part, h.flat _⟩

/-! ### The theorem -/

/-- **A manifest counts the lines of the files.**  When a command that generates utterances has come
to its end, the manifest is in the directory, and it lists the intents of the grammar with what
their plans come to.  If no two files of intents have one place, then the file for an intent and a
part has as many lines as the manifest says, unless that is none and a file was there before; such a
file is as it was.  No text is in two files that have been written for an intent. -/
theorem manifest_counts_lines {path : String} {o : GenerateOptions} {drawnSeed : UInt64}
    {arrange : List (List Batch) → List Batch}
    (harrange : ∀ lists, Interleaves lists (arrange lists)) {desk desk' : Desk}
    (hrun : (Command.generate path o drawnSeed arrange).run.run desk = (.ok (), desk')) :
    ∃ (p₀ p : Project) (g : Grammar) (gen : Generator) (plans : List (Plan gen.graph))
      (report : Report) (output : String),
      (Command.settings o.settingsPath (Command.directoryOf path)).run.run desk = (.ok p₀, desk) ∧
      p = o.override p₀ ∧
      desk.files.grammar path = .ok g ∧
      Graph.build g p.settings.exhaustiveCeiling = .ok gen.graph ∧
      gen.settings = p.settings ∧ gen.seed = p.settings.seed.getD drawnSeed ∧
      gen.plans p.settings.request = .ok plans ∧
      report = ⟨gen.summarise (plans.map gen.fullHarvest), []⟩ ∧
      output = o.outputPath p path (Command.directoryOf path) ∧
      desk'.files.readText (Path.join output "manifest.json")
        = .ok (report.manifest path gen.graph.contentHash).indented ∧
      report.summary.cancelled = false ∧
      report.summary.intents.map (·.intent) = g.intents.map (·.key.name) ∧
      (DistinctFiles desk'.files output (g.intents.map (·.key.name)) →
        ∀ s ∈ report.summary.intents,
          (∃ us, s.OnDisk output desk.files desk'.files us) ∧
          ∀ part, (s.count part = 0 →
              ∀ place, desk'.files.find (pathIn output (s.intent, part)) = .ok place →
                desk.files.content? place = none) →
            desk'.files.lineCount (pathIn output (s.intent, part)) = s.count part) := by
  obtain ⟨p, graph, report, r, made, h⟩ := Command.generate_eq_ok_iff.mp ⟨desk', hrun, rfl⟩
  obtain ⟨p₀, hproject, hp⟩ := h.project
  obtain ⟨g, hread, hbuild⟩ := h.read
  obtain ⟨plans, hplans, rfl, -, -⟩ := h.exists_filed
  obtain ⟨hmanifest, -, -⟩ := h.exists_manifest
  refine ⟨p₀, p, g, _, plans, _, _, hproject, hp, hread, hbuild, rfl, rfl, hplans, rfl, rfl,
    hmanifest, h.complete, ?_, fun hdistinct s hs => ?_⟩
  · exact (Generator.intents_summarise plans).trans (Generator.names_of_plans hbuild hplans)
  · obtain ⟨_, hharvest, rfl⟩ := List.mem_map.mp hs
    obtain ⟨plan, hplan, rfl⟩ := List.mem_map.mp hharvest
    have hdisk :=
      h.onDisk harrange (sound_of_grammar hread) hbuild hdistinct plans hplans plan hplan
    exact ⟨⟨_, hdisk⟩, fun part hfresh => hdisk.lineCount_eq hfresh⟩

/-- A directory with a grammar in it. -/
def Files.holding (text : String) : Files := ⟨[(["a.phrasal"], .file text.toUTF8)], []⟩

theorem Files.holds_holding (text : String) : (Files.holding text).Holds text where
  workDir := rfl
  text := rfl
  settings := by
    have hother : (["phrasal.yaml"] == ["a.phrasal"]) = false := by decide
    unfold entry?
    simp [holding, List.lookup_cons, hother]
  flat name := by
    intro h
    unfold entry? at h
    simp only [holding, List.lookup_cons, List.lookup_nil] at h
    split at h
    · next hnil => cases hnil
    · split at h
      · cases h
      · cases h

/-- The plan for the greetings that are read. -/
def Plan.greetingsFromText : Plan Generator.greetingsFromText.graph :=
  Generator.greetingsFromText.planAt (Fin.last 0) "greet" (some (.samples 3, 1)) {}

theorem count_greetingsFromText (part : Part) :
    (Generator.greetingsFromText.fullHarvest Plan.greetingsFromText).summary.count part = 1 := by
  rw [Harvest.count_summary, Generator.fullHarvest, Generator.labelled_outcome]
  cases part <;> decide +kernel

/-- The batches of the jobs may come one job after the other. -/
theorem interleaves_flatten (lists : List (List Batch)) : Interleaves lists lists.flatten :=
  (WorkerSettings.delivers_flatten (w := ⟨1, 1⟩) (by decide) (by decide) lists).interleaves

theorem pathIn_greet : pathIn "." ("greet", .training) = "./greet.ndjson" ∧
    pathIn "." ("greet", .testing) = "./greet.test.ndjson" := by
  decide

theorem writable_greet (part : Part) : Writable "." (fileName "greet" part) := by
  refine ⟨isName_fileName (by decide) _, ?_, ?_, ?_⟩ <;> cases part <;> decide

/-- One of the greetings is for training and one for testing, and so many lines are in their
files. -/
theorem lines_of_greetings : (∀ lists : List (List Batch), Interleaves lists lists.flatten) ∧
    ∃ desk', (Command.generate "./a.phrasal" .here 7).run.run ⟨.holding Grammar.greetingsText, []⟩
        = (.ok (), desk') ∧
      DistinctFiles desk'.files "." ["greet"] ∧
      desk'.files.lineCount "./greet.ndjson" = 1 ∧
      desk'.files.lineCount "./greet.test.ndjson" = 1 := by
  have hplans : Generator.greetingsFromText.plans {} = .ok [Plan.greetingsFromText] := rfl
  obtain ⟨r, made, after, h⟩ := (holds_holding Grammar.greetingsText).exists_generated
    read_greetingsText build_greetingsText hplans
    (List.forall_mem_singleton.mpr writable_greet)
  obtain ⟨desk', hrun, rfl⟩ := Command.generate_eq_ok_iff.mpr ⟨_, _, _, _, _, h⟩
  obtain ⟨p₀, p, g, ⟨graph, settings, seed⟩, plans, report, output, hproject, hp, hread, hbuild,
    hsettings, hseed, hplans', hreport, houtput, -, -, hintents, hlines⟩ :=
    manifest_counts_lines interleaves_flatten hrun
  -- what has been read and planned is known
  obtain rfl : p = {} := by
    obtain ⟨p₁, hproject', hp₁⟩ := h.project
    rw [hproject'] at hproject
    cases hproject
    exact hp.trans hp₁.symm
  obtain rfl : graph = Generator.greetingsFromText.graph := by
    obtain ⟨g', hread', hbuild'⟩ := h.read
    obtain rfl : g = g' := Except.ok.inj (hread.symm.trans hread')
    exact Except.ok.inj (hbuild.symm.trans hbuild')
  obtain rfl : settings = {} := hsettings
  obtain rfl : seed = 7 := hseed
  obtain rfl : plans = [Plan.greetingsFromText] :=
    Except.ok.inj (hplans'.symm.trans hplans)
  obtain rfl : output = "." := houtput
  subst hreport
  have hnames : g.intents.map (·.key.name) = ["greet"] := hintents.symm
  have hdistinct : DistinctFiles desk'.files "." ["greet"] :=
    distinctFiles_of_names (by decide) desk'.files "."
  rw [hnames] at hlines
  obtain ⟨-, hcount⟩ := hlines hdistinct _ List.mem_cons_self
  have hlength (part : Part) : desk'.files.lineCount (pathIn "." ("greet", part)) = 1 := by
    have hone := count_greetingsFromText part
    refine (hcount part fun hzero => ?_).trans hone
    exact absurd (hone.symm.trans hzero) (by decide)
  rw [← pathIn_greet.1, ← pathIn_greet.2]
  exact ⟨interleaves_flatten, desk', hrun, hdistinct, hlength _, hlength _⟩

/-! ### Lines of an earlier run -/

/-- One greeting as it is written down. -/
def Grammar.helloText : String := "%[greet]\n hello\n"

/-- The grammar that is read. -/
def Grammar.hello : Grammar where
  source := Grammar.helloText
  definitions := [
    { key := ⟨.intent, "greet", none⟩, arguments := [], line := 1
      alternatives := [{ elements := [.literal "hello" false], weight := none, line := 2 }] }]

/-- The network of that grammar. -/
def Network.hello : Network 1 := #v[
  { key := ⟨.intent, "greet", none⟩, arguments := []
    choices := [{ steps := [.words ["hello"] false], weight := none, line := 2 }] }]

/-- A generator for that grammar. -/
def Generator.hello : Generator where
  graph := ⟨1, .hello, Network.hello.counts, .replicate 1 [1.0], Grammar.hello.contentHash⟩
  settings := {}
  seed := 7

/-- The plan for its intent. -/
def Plan.hello : Plan Generator.hello.graph :=
  Generator.hello.planAt (Fin.last 0) "greet" none {}

theorem build_hello : Graph.build .hello 10000 = .ok Generator.hello.graph := by
  have hlink : link Grammar.hello.definitions = .ok Network.hello := by with_unfolding_all rfl
  have hprobabilities : Network.hello.probabilities 10000 = .ok (.replicate 1 [1.0]) :=
    probabilities_eq_ok (by decide +kernel)
  have hcheck : Network.hello.check = .ok () := rfl
  exact build_eq_ok_iff.mpr ⟨_, hlink, _, hprobabilities, hcheck, rfl⟩

theorem yielded_hello : (Generator.hello.fullHarvest Plan.hello).yielded
    = [(.training, wordTokens ["hello"])] := by
  rw [Generator.fullHarvest, Generator.labelled_outcome]
  decide +kernel

theorem Files.Holds.put {fs : Files} {text name : String} (h : fs.Holds text)
    (hgrammar : name ≠ "a.phrasal") (hsettings : name ≠ "phrasal.yaml") (content : ByteArray) :
    (fs.put [name] (.file content)).Holds text where
  workDir := h.workDir
  text := by
    rw [← h.text]
    exact content?_congr ((entry?_put (by simp) _ _).trans (if_neg (by simpa using hgrammar.symm)))
  settings := by
    rw [entry?_put (by simp), if_neg (by simpa using hsettings.symm)]
    exact h.settings
  flat other := by
    rw [entry?_put (by simp)]
    split
    · intro hmade
      cases hmade
    · exact h.flat other

/-- The grammar, and a file from an earlier run that kept the greeting for testing. -/
def Files.stale : Files :=
  (Files.holding Grammar.helloText).put ["greet.test.ndjson"]
    (.file (linesText [wordTokens ["hello"]]).toUTF8)

/-- **Lines of an earlier run** may stay: the manifest says that there is nothing for testing, but
the file has a line with the text that is for training. -/
theorem stale_lines_stay : ∃ desk' report,
    (Command.generate "./a.phrasal" .here 7).run.run ⟨.stale, []⟩ = (.ok (), desk') ∧
    desk'.files.readText "./manifest.json"
      = .ok (Report.manifest report "./a.phrasal" Grammar.hello.contentHash).indented ∧
    report.summary.intents.map (fun s => (s.intent, s.training, s.testing)) = [("greet", 1, 0)] ∧
    DistinctFiles desk'.files "." ["greet"] ∧
    desk'.files.lineCount "./greet.test.ndjson" = 1 ∧
    desk'.files.readText "./greet.ndjson" = .ok (linesText [wordTokens ["hello"]]) ∧
    desk'.files.readText "./greet.test.ndjson" = .ok (linesText [wordTokens ["hello"]]) := by
  have hread : Grammar.read Grammar.helloText = .ok Grammar.hello := by cbv
  have hplans : Generator.hello.plans {} = .ok [Plan.hello] := rfl
  have hholds : Files.stale.Holds Grammar.helloText :=
    (holds_holding _).put (by decide) (by decide) _
  obtain ⟨r, made, after, h⟩ := hholds.exists_generated hread
    build_hello hplans (List.forall_mem_singleton.mpr writable_greet)
  obtain ⟨desk', hrun, rfl⟩ := Command.generate_eq_ok_iff.mpr ⟨_, _, _, _, _, h⟩
  have hdistinct : DistinctFiles desk'.files "." ["greet"] :=
    distinctFiles_of_names (by decide) desk'.files "."
  obtain ⟨hmanifest, -, -⟩ := h.exists_manifest
  obtain ⟨g, hg, hbuild⟩ := h.read
  have hnames : g.intents.map (·.key.name) = ["greet"] := by
    rw [← Generator.names_of_plans hbuild hplans]
    rfl
  have hdisk : (Generator.hello.fullHarvest Plan.hello).summary.OnDisk "." .stale desk'.files
      fun part => utterancesOf part (Generator.hello.fullHarvest Plan.hello).yielded :=
    h.onDisk interleaves_flatten (sound_of_grammar hg) hbuild (hnames ▸ hdistinct) [Plan.hello]
      hplans Plan.hello List.mem_cons_self
  have hsummary : ((Generator.hello.fullHarvest Plan.hello).summary.intent,
      (Generator.hello.fullHarvest Plan.hello).summary.training,
      (Generator.hello.fullHarvest Plan.hello).summary.testing) = ("greet", 1, 0) := by
    rw [Harvest.summary, yielded_hello]
    rfl
  rw [yielded_hello] at hdisk
  -- the file for testing stands where it stood
  have hfind : Files.stale.find (pathIn "." ("greet", .testing)) = .ok ["greet.test.ndjson"] :=
    (find_join_eq_ok_iff (writable_greet .testing) (leads_here rfl)).mpr ⟨rfl, rfl⟩
  have hstale : Files.stale.readText (pathIn "." ("greet", .testing))
      = .ok (linesText [wordTokens ["hello"]]) :=
    readText_eq_ok hfind (content?_put (by simp) _)
  have htesting : desk'.files.readText (pathIn "." ("greet", .testing))
      = .ok (linesText [wordTokens ["hello"]]) := by
    have hfind' := h.grows.find hfind
    rw [readText_congr hfind hfind' (hdisk.left .testing rfl _ hfind')]
    exact hstale
  have hcount : desk'.files.lineCount (pathIn "." ("greet", .testing)) = 1 :=
    lineCount_of_readText htesting
  have htraining := hdisk.lines .training (by simp [utterancesOf])
  rw [← pathIn_greet.1, ← pathIn_greet.2]
  exact ⟨desk', _, hrun, hmanifest, congrArg (· :: []) hsummary, hdistinct, hcount, htraining,
    htesting⟩

end IntentGrammar
