import IntentGrammar.Proofs.Lines
import IntentGrammar.Proofs.Paths

/-!
# What is filed

Two intents and parts have files with one name only if one of the intents is named like the other
with `.test` behind it (`LineFiles.fileName_eq_iff`), and for names without slashes it is the same
with the paths of the files (`LineFiles.samePath_pathIn_iff`).  The names of files are what keeps
them apart: files at one place are written over each other, but a file whose place no other has ends
with exactly the lines of its intent and part (**`line_files_hold_deliveries`**).
-/

namespace IntentGrammar

open Files Text

namespace LineFiles

/-! ### Names of files -/

/-- The file for training has the name of the file for testing of another intent. -/
def Clash (key other : String × Part) : Prop :=
  key.1 = other.1 ++ ".test" ∧ key.2 = .training ∧ other.2 = .testing

theorem fileName_testing (intent : String) :
    fileName intent .testing = fileName (intent ++ ".test") .training := by
  rw [fileName, fileName, String.append_assoc]
  rfl

theorem fileName_training_inj {intent intent' : String} :
    fileName intent .training = fileName intent' .training ↔ intent = intent' :=
  String.append_left_inj _

/-- **Names of files** are the same only for the same intent and part, or if they clash. -/
theorem fileName_eq_iff {intent intent' : String} {part part' : Part} :
    fileName intent part = fileName intent' part' ↔ (intent, part) = (intent', part') ∨
      Clash (intent, part) (intent', part') ∨ Clash (intent', part') (intent, part) := by
  cases part with
  | training =>
    cases part' with
    | training =>
      rw [fileName_training_inj]
      simp [Clash]
    | testing =>
      rw [fileName_testing, fileName_training_inj]
      simp [Clash]
  | testing =>
    cases part' with
    | training =>
      rw [fileName_testing, fileName_training_inj]
      simp [Clash, eq_comm]
    | testing =>
      rw [fileName_testing, fileName_testing, fileName_training_inj, String.append_left_inj]
      simp [Clash]

/-- How the names of all files end. -/
def ending : List Char := ".ndjson".toList

theorem exists_toList_fileName (intent : String) (part : Part) :
    ∃ behind, (fileName intent part).toList = intent.toList ++ (behind ++ ending) ∧
      (behind ++ ending).head? = some '.' ∧ '/' ∉ behind ++ ending := by
  cases part with
  | training => exact ⟨[], String.toList_append, by decide, by decide⟩
  | testing => exact ⟨".test".toList, String.toList_append, by decide, by decide⟩

theorem isAbsolute_fileName (intent : String) (part : Part) :
    Path.isAbsolute (fileName intent part) = Path.isAbsolute intent := by
  obtain ⟨behind, hchars, hhead, -⟩ := exists_toList_fileName intent part
  rw [Path.isAbsolute, Path.isAbsolute, hchars]
  rcases intent.toList with _ | ⟨c, cs⟩
  · rw [List.nil_append, hhead]
    rfl
  · rfl

/-- An intent without slashes gives its files names that are one step down. -/
theorem isName_fileName {intent : String} (h : '/' ∉ intent.toList) (part : Part) :
    Path.IsName (fileName intent part) := by
  obtain ⟨behind, hchars, -, hslash⟩ := exists_toList_fileName intent part
  refine ⟨?_, ?_⟩
  · rw [hchars, List.mem_append, not_or]
    exact ⟨h, hslash⟩
  · rw [Path.Step.ofSegment_of_long, String.ofList_toList]
    have hlength : ending.length = 7 := rfl
    rw [hchars, List.length_append, List.length_append, hlength]
    omega

/-- The path in a directory of the file for an intent and a part. -/
def pathIn (directory : String) (key : String × Part) : String :=
  ({ directory } : LineFiles).path key.1 key.2

/-- **Paths of files** are the same only where the names are, if no intent starts at the root. -/
theorem pathIn_eq_iff {directory : String} {key other : String × Part}
    (h : Path.isAbsolute key.1 = false) (h' : Path.isAbsolute other.1 = false) :
    pathIn directory key = pathIn directory other ↔
      key = other ∨ Clash key other ∨ Clash other key := by
  rw [pathIn, pathIn, path, path, Path.join_inj, fileName_eq_iff]
  · rw [isAbsolute_fileName, h]
  · rw [isAbsolute_fileName, h']

/-- Paths that mean the same wherever they are used: they start alike and go through the same names.
Steps that stay make no difference. -/
def SamePath (path path' : String) : Prop :=
  Path.isAbsolute path = Path.isAbsolute path' ∧
    (Path.steps path).filter (· ≠ .stay) = (Path.steps path').filter (· ≠ .stay)

/-- Where intents have no slashes in their names, the paths of files mean the same only if they are
the same texts. -/
theorem samePath_pathIn_iff {directory : String} {key other : String × Part}
    (h : '/' ∉ key.1.toList) (h' : '/' ∉ other.1.toList) :
    SamePath (pathIn directory key) (pathIn directory other) ↔
      key = other ∨ Clash key other ∨ Clash other key := by
  have hname := isName_fileName h key.2
  have hname' := isName_fileName h' other.2
  have hdown (name : String) :
      [Path.Step.down name].filter (fun step => decide (step ≠ .stay)) = [.down name] := rfl
  rw [SamePath, pathIn, pathIn, path, path, Path.isAbsolute_join directory hname,
    Path.isAbsolute_join directory hname', Path.steps_join directory hname,
    Path.steps_join directory hname', List.filter_append, List.filter_append, hdown, hdown,
    List.append_cancel_left_eq, List.cons.injEq, Path.Step.down.injEq, ← fileName_eq_iff]
  simp

/-- The files of intents stand at different places. -/
def DistinctFiles (fs : Files) (directory : String) (intents : List String) : Prop :=
  ∀ i ∈ intents, ∀ part, ∀ j ∈ intents, ∀ part' place,
    fs.find (pathIn directory (i, part)) = .ok place →
      fs.find (pathIn directory (j, part')) = .ok place → (i, part) = (j, part')

section Names

variable {intents : List String} {i j : String} {part part' : Part}

/-- Names without slashes that do not clash are different. -/
theorem eq_of_fileName_eq (hnames : ∀ i ∈ intents, '/' ∉ i.toList ∧ i ++ ".test" ∉ intents)
    (hi : i ∈ intents) (hj : j ∈ intents) (h : fileName i part = fileName j part') :
    (i, part) = (j, part') := by
  rcases fileName_eq_iff.mp h with hsame | ⟨hclash, -⟩ | ⟨hclash, -⟩
  · exact hsame
  · exact absurd (hclash ▸ hi) (hnames j hj).2
  · exact absurd (hclash ▸ hj) (hnames i hi).2

theorem distinctFiles_of_names (hnames : ∀ i ∈ intents, '/' ∉ i.toList ∧ i ++ ".test" ∉ intents)
    (fs : Files) (directory : String) : DistinctFiles fs directory intents := by
  intro i hi part j hj part' place hfind hfind'
  apply eq_of_fileName_eq hnames hi hj
  have hname := isName_fileName (hnames i hi).1 part
  have hname' := isName_fileName (hnames j hj).1 part'
  exact (find_join_eq_iff hname hname' hfind hfind').mp rfl

end Names

/-! ### Batches that are taken up -/

variable {w w' : LineFiles} {fs fs' before : Files} {b : Batch} {log bs : List Batch}
  {directory : String} {base : Place}

theorem accept_eq_accepted_iff : (Written.sink.accept b ⟨w, fs⟩).1 = .accepted ↔
    ∃ w' fs', (w.accept b).run.run fs = (.ok w', fs') ∧
      Written.sink.accept b ⟨w, fs⟩ = (.accepted, ⟨w', fs'⟩) := by
  simp only [Written.sink]
  rcases hrun : (w.accept b).run.run fs with ⟨e | w', fs'⟩
  · constructor
    · intro h
      cases h
    · rintro ⟨w', fs', h, -⟩
      cases h
  · exact ⟨fun _ => ⟨w', fs', rfl, rfl⟩, fun _ => rfl⟩

/-- **A run of batches** is taken up into the files for their intents and parts. -/
theorem Tracks.takes (h : Tracks directory before log w fs)
    (htakes : Written.sink.Takes ⟨w, fs⟩ bs) :
    ∃ w' fs', Written.sink.after ⟨w, fs⟩ bs = ⟨w', fs'⟩ ∧
      Tracks directory before (log ++ bs) w' fs' := by
  induction bs generalizing log w fs with
  | nil =>
    rw [List.append_nil]
    exact ⟨w, fs, rfl, h⟩
  | cons b bs ih =>
    obtain ⟨haccepted, hrest⟩ := htakes
    obtain ⟨w₁, fs₁, hrun, haccept⟩ := accept_eq_accepted_iff.mp haccepted
    rw [haccept] at hrest
    obtain ⟨w', fs', hafter, htracks⟩ := ih (h.accept hrun) hrest
    refine ⟨w', fs', ?_, ?_⟩
    · rw [← hafter, Sink.after, Sink.after, List.foldl_cons, haccept]
    · rwa [List.append_assoc] at htracks

theorem run_creating_of_ok {α : Type} {act : Filing α} {a : α} (path : String)
    (h : act.run.run fs = (.ok a, fs')) : (creating path act).run.run fs = (.ok a, fs') := by
  show ((act.run.run fs).1.mapError _, (act.run.run fs).2) = _
  rw [h]
  rfl

/-- Where the directory is there, a file is open or can be made, unless a directory has its name. -/
theorem exists_fileFor {intent : String} {part : Part} (hdir : fs.Leads w.directory base)
    (hname : Writable w.directory (fileName intent part))
    (hfree : fs.entry? (base ++ [fileName intent part]) ≠ some .directory) :
    ∃ f fs', (w.fileFor intent part).run.run fs = (.ok f, fs') ∧ OnlyFiles fs fs' := by
  rw [fileFor]
  rcases w.openFiles.lookup (intent, part) with _ | f
  · have hmake := run_creating_of_ok w.directory hdir.run_makeDirectories
    have hcreate := run_creating_of_ok (w.path intent part)
      (run_create_join hname hdir hfree)
    exact ⟨_, _, (run_bind_of_ok hmake _).trans ((run_bind_of_ok hcreate _).trans rfl),
      .put hfree .empty⟩
  · exact ⟨f, fs, rfl, .refl fs⟩

/-- Where the directory is there, a batch is accepted unless its file cannot be made. -/
theorem Tracks.exists_accept (h : Tracks directory before log w fs)
    (hdir : fs.Leads directory base) (hname : Writable directory (fileName b.intent b.part))
    (hfree : fs.entry? (base ++ [fileName b.intent b.part]) ≠ some .directory) :
    ∃ w' fs', (w.accept b).run.run fs = (.ok w', fs') ∧ OnlyFiles fs fs' := by
  rw [← h.directory] at hdir hname
  obtain ⟨f, fs₁, hfile, honly⟩ := exists_fileFor hdir hname hfree
  have hready := ready_of_fileFor (h.ready (b.intent, b.part)) hfile
  rcases hwrite : (f.writeLines b.utterances).run fs₁ with ⟨f', fs'⟩
  have hadds := OpenFile.adds_writeLines hwrite hready.file
  have hlift : (liftM (f.writeLines b.utterances) : Creating OpenFile).run.run fs₁
      = (.ok f', fs') := by
    show (Except.ok ((f.writeLines b.utterances).run fs₁).1,
      ((f.writeLines b.utterances).run fs₁).2) = _
    rw [hwrite]
  exact ⟨_, fs', (run_bind_of_ok hfile _).trans ((run_bind_of_ok hlift _).trans rfl),
    honly.trans (hadds.changes.onlyFiles hready.file)⟩

/-- **Batches are taken up** in a directory that is there, as long as their files can be made, and
only files change. -/
theorem Tracks.takes_of_writable (h : Tracks directory before log w fs)
    (hdir : fs.Leads directory base)
    (hbs : ∀ b ∈ bs, Writable directory (fileName b.intent b.part) ∧
      fs.entry? (base ++ [fileName b.intent b.part]) ≠ some .directory) :
    Written.sink.Takes ⟨w, fs⟩ bs ∧ OnlyFiles fs (Written.sink.after ⟨w, fs⟩ bs).files := by
  induction bs generalizing log w fs with
  | nil => exact ⟨trivial, .refl fs⟩
  | cons b bs ih =>
    obtain ⟨hname, hfree⟩ := hbs b List.mem_cons_self
    obtain ⟨w₁, fs₁, hrun, honly⟩ := h.exists_accept hdir hname hfree
    have haccept : Written.sink.accept b ⟨w, fs⟩ = (.accepted, ⟨w₁, fs₁⟩) := by
      simp only [Written.sink, hrun]
    obtain ⟨htakes, honly'⟩ := ih (h.accept hrun) (hdir.of_grows honly.toGrows) fun c hc => by
      obtain ⟨hname', hfree'⟩ := hbs c (List.mem_cons_of_mem b hc)
      exact ⟨hname', fun hmade => hfree' (honly.back _ hmade)⟩
    rw [Sink.Takes, Sink.after_cons, haccept]
    exact ⟨⟨rfl, htakes⟩, honly.trans honly'⟩

/-! ### Files that are closed -/

/-- The files when all is written: what the file for an intent and a part holds, and that other
files are as they were before. -/
structure Filed (directory : String) (before : Files) (log : List Batch) (fs : Files) : Prop where
  lines (b : Batch) : b ∈ log → ∃ place,
    fs.find (pathIn directory (b.intent, b.part)) = .ok place ∧
      ((∀ c ∈ log, fs.find (pathIn directory (c.intent, c.part)) = .ok place →
          (c.intent, c.part) = (b.intent, b.part)) →
        fs.readText (pathIn directory (b.intent, b.part))
          = .ok (linesText (delivered log b.intent b.part)))
  others (place : Place) :
    (∀ b ∈ log, fs.find (pathIn directory (b.intent, b.part)) ≠ .ok place) →
      fs.content? place = before.content? place

theorem Tracks.filed (h : Tracks directory before log w fs) :
    ∃ w' fs', Written.sink.close ⟨w, fs⟩ = (none, ⟨w', fs'⟩) ∧ OnlyFiles fs fs' ∧
      Filed directory before log fs' := by
  have hfiles : ∀ x ∈ w.openFiles, (fs.content? x.2.place).isSome := fun x hx =>
    (h.ready x.1 x.2 (h.ordered.lookup_eq_some_iff.mpr hx)).file
  have honly := onlyFiles_flushed hfiles
  have hpath (key : String × Part) : w.path key.1 key.2 = pathIn directory key := by
    rw [path, pathIn, path, h.directory]
  -- the file that is open for a batch is where its path leads
  have hopen (c) (hc : c ∈ log) : ∃ f, w.openFiles.lookup (c.intent, c.part) = some f ∧
      (flushed w.openFiles fs).find (pathIn directory (c.intent, c.part)) = .ok f.place := by
    obtain ⟨f, hf⟩ := Option.isSome_iff_exists.mp ((h.opened (c.intent, c.part)).mpr ⟨c, hc, rfl⟩)
    exact ⟨f, hf, hpath (c.intent, c.part) ▸ honly.find (h.ready _ f hf).found⟩
  -- and every open file is open for a batch
  have hkey (key f) (hf : w.openFiles.lookup key = some f) :
      ∃ c ∈ log, (c.intent, c.part) = key ∧
        (flushed w.openFiles fs).find (pathIn directory (c.intent, c.part)) = .ok f.place := by
    obtain ⟨c, hc, rfl⟩ := (h.opened key).mp (by rw [hf]; rfl)
    obtain ⟨f', hf', hfind⟩ := hopen c hc
    rw [hf] at hf'
    cases hf'
    exact ⟨c, hc, rfl, hfind⟩
  refine ⟨_, flushed w.openFiles fs, rfl, honly, ?_, ?_⟩
  · intro b hb
    obtain ⟨f, hf, hfind⟩ := hopen b hb
    refine ⟨f.place, hfind, fun halone => readText_eq_ok hfind ?_⟩
    have halone' (key f') (hf' : w.openFiles.lookup key = some f') (hplace : f'.place = f.place) :
        key = (b.intent, b.part) := by
      obtain ⟨c, hc, rfl, hfind'⟩ := hkey key f' hf'
      exact halone c hc (hplace ▸ hfind')
    exact content?_flushed h.ordered hfiles (h.ordered.lookup_eq_some_iff.mp hf)
      (fun y hy => halone' y.1 y.2 (h.ordered.lookup_eq_some_iff.mpr hy)) (h.holds _ f hf halone')
  · intro place hplace
    have hne (key f) (hf : w.openFiles.lookup key = some f) : f.place ≠ place := by
      rintro rfl
      obtain ⟨c, hc, -, hfind⟩ := hkey key f hf
      exact hplace c hc hfind
    rw [content?_flushed_of_ne hfiles, h.others place hne]
    exact fun x hx => hne x.1 x.2 (h.ordered.lookup_eq_some_iff.mpr hx)

/-- Files may be added later.  If the files of intents stand at different places, the file for an
intent and a part then holds all that has been delivered for them, or it is as it was before. -/
theorem Filed.later (h : Filed directory before log fs) (hgrows : Grows fs fs')
    {intents : List String} (hlog : ∀ b ∈ log, b.intent ∈ intents)
    (hdistinct : DistinctFiles fs' directory intents) {key : String × Part} (hkey : key.1 ∈ intents)
    (hsame : ∀ place, fs'.find (pathIn directory key) = .ok place →
      fs'.content? place = fs.content? place) :
    ((∃ b ∈ log, (b.intent, b.part) = key) →
      fs'.readText (pathIn directory key) = .ok (linesText (delivered log key.1 key.2))) ∧
    ((∀ b ∈ log, (b.intent, b.part) ≠ key) →
      ∀ place, fs'.find (pathIn directory key) = .ok place →
        fs'.content? place = before.content? place) := by
  have halone (b) (hb : b ∈ log) (place) (hfind : fs'.find (pathIn directory key) = .ok place)
      (hfind' : fs'.find (pathIn directory (b.intent, b.part)) = .ok place) :
      (b.intent, b.part) = key :=
    hdistinct b.intent (hlog b hb) b.part key.1 hkey key.2 place hfind' hfind
  constructor
  · rintro ⟨b, hb, rfl⟩
    obtain ⟨place, hfind, hlines⟩ := h.lines b hb
    rw [readText_congr hfind (hgrows.find hfind) (hsame place (hgrows.find hfind))]
    exact hlines fun c hc hfind' =>
      halone c hc place (hgrows.find hfind) (hgrows.find hfind')
  · intro hnone place hfind
    rw [hsame place hfind]
    exact h.others place fun b hb hfind' =>
      hnone b hb (halone b hb place hfind (hgrows.find hfind'))

end LineFiles

open LineFiles

/-! ### The theorem -/

/-- **Files hold what is delivered.**  If intents have no slashes in their names, the path of a file
is that of another, as a text or by its steps, only if their names clash.  When the batches of a run
have been accepted and the files closed, each file whose place no other has holds exactly the lines
of its intent and part, in the order of the batches, and what no batch leads to is as it was before.
So it is with all files if no intent has a slash in its name or is named like another with `.test`
behind it. -/
theorem line_files_hold_deliveries (directory : String) (before : Files) (log : List Batch)
    (h : Written.sink.Takes ⟨{ directory }, before⟩ log) :
    (∀ key other : String × Part, '/' ∉ key.1.toList → '/' ∉ other.1.toList →
      (pathIn directory key = pathIn directory other ↔
        key = other ∨ Clash key other ∨ Clash other key) ∧
      (SamePath (pathIn directory key) (pathIn directory other) ↔
        key = other ∨ Clash key other ∨ Clash other key)) ∧
    ∃ w fs, Written.sink.close (Written.sink.after ⟨{ directory }, before⟩ log) = (none, ⟨w, fs⟩) ∧
      Filed directory before log fs ∧
      ∀ intents : List String, (∀ b ∈ log, b.intent ∈ intents) →
        (∀ i ∈ intents, '/' ∉ i.toList ∧ i ++ ".test" ∉ intents) →
        ∀ i ∈ intents, ∀ part,
          (∀ j ∈ intents, ∀ part',
            pathIn directory (i, part) = pathIn directory (j, part') → (i, part) = (j, part')) ∧
          ((∃ b ∈ log, (b.intent, b.part) = (i, part)) →
            fs.readText (pathIn directory (i, part)) = .ok (linesText (delivered log i part))) ∧
          ((∀ b ∈ log, (b.intent, b.part) ≠ (i, part)) →
            ∀ place, fs.find (pathIn directory (i, part)) = .ok place →
              fs.content? place = before.content? place) := by
  refine ⟨fun key other hslash hslash' => ⟨pathIn_eq_iff ?_ ?_, samePath_pathIn_iff hslash hslash'⟩,
    ?_⟩
  · exact (isAbsolute_fileName key.1 key.2).symm.trans (isName_fileName hslash key.2).isAbsolute
  · exact (isAbsolute_fileName other.1 other.2).symm.trans
      (isName_fileName hslash' other.2).isAbsolute
  obtain ⟨w, fs, hafter, htracks⟩ := (tracks_nothing directory before).takes h
  obtain ⟨w', fs', hclose, -, hfiled⟩ := htracks.filed
  refine ⟨w', fs', hafter ▸ hclose, hfiled, ?_⟩
  intro intents hlog hnames i hi part
  have hdistinct := distinctFiles_of_names hnames fs' directory
  refine ⟨fun j hj part' hpath => eq_of_fileName_eq hnames hi hj ?_,
    hfiled.later (.refl _) hlog hdistinct hi fun _ _ => rfl⟩
  have hname := isName_fileName (hnames i hi).1 part
  have hname' := isName_fileName (hnames j hj).1 part'
  exact (Path.join_inj hname.isAbsolute hname'.isAbsolute).mp hpath

/-- Where nothing is there are no names of directories. -/
theorem ne_directory_of_empty (name : String) : Files.entry? {} [name] ≠ some .directory := by
  intro h
  cases h

/-- What a run of two intents may deliver. -/
def Batch.visit : List Batch :=
  [⟨"greet", 0, .training, [wordTokens ["hello", "there"]]⟩,
    ⟨"leave", 0, .testing, [wordTokens ["bye"]]⟩,
    ⟨"greet", 1, .training, [wordTokens ["hello"]]⟩]

/-- Two batches with lines for greeting are in one file, and there is no file for testing it. -/
theorem files_of_visit : Written.sink.Takes ⟨{ directory := "." }, {}⟩ Batch.visit ∧
    ∃ w fs, Written.sink.close (Written.sink.after ⟨{ directory := "." }, {}⟩ Batch.visit)
        = (none, ⟨w, fs⟩) ∧
      fs.readText "./greet.ndjson"
        = .ok ("[\x7b\"type\":\"word\",\"text\":\"hello\"\x7d,"
          ++ "\x7b\"type\":\"word\",\"text\":\"there\"\x7d]\n"
          ++ "[\x7b\"type\":\"word\",\"text\":\"hello\"\x7d]\n") ∧
      fs.readText "./leave.test.ndjson"
        = .ok "[\x7b\"type\":\"word\",\"text\":\"bye\"\x7d]\n" := by
  have hwritable : ∀ b ∈ Batch.visit, Writable "." (fileName b.intent b.part) := by
    have hgreet : Writable "." (fileName "greet" .training) :=
      ⟨isName_fileName (by decide) _, by decide, by decide, by decide⟩
    have hleave : Writable "." (fileName "leave" .testing) :=
      ⟨isName_fileName (by decide) _, by decide, by decide, by decide⟩
    simp [Batch.visit, hgreet, hleave]
  have htakes : Written.sink.Takes ⟨{ directory := "." }, {}⟩ Batch.visit :=
    ((tracks_nothing "." {}).takes_of_writable (leads_here rfl)
      fun b hb => ⟨hwritable b hb, ne_directory_of_empty _⟩).1
  obtain ⟨-, w, fs, hclose, -, hlines⟩ := line_files_hold_deliveries "." {} Batch.visit htakes
  have hfiles := hlines ["greet", "leave"] (by decide) (by decide)
  refine ⟨htakes, w, fs, hclose, ?_, ?_⟩
  · have hgreet := (hfiles "greet" (by decide) .training).2.1 (by decide)
    refine hgreet.trans (congrArg _ ?_)
    cbv
  · have hleave := (hfiles "leave" (by decide) .testing).2.1 (by decide)
    refine hleave.trans (congrArg _ ?_)
    cbv

/-- Batches for testing one intent and for training another that is named like it with `.test`
behind. -/
def Batch.clash : List Batch :=
  [⟨"a", 0, .testing, [wordTokens ["x"]]⟩, ⟨"a.test", 0, .training, [wordTokens ["y"]]⟩]

/-- **Names may clash**: the intents can be declared and their batches are accepted, but the files
have one path, so they cannot both hold the lines for them. -/
theorem clash_of_names :
    (Grammar.read "%[a]\n    x\n%[a.test]\n    y\n").map (fun g => g.intents.map (·.key.name))
      = .ok ["a", "a.test"] ∧
    pathIn "." ("a", .testing) = pathIn "." ("a.test", .training) ∧
    Written.sink.Takes ⟨{ directory := "." }, {}⟩ Batch.clash ∧
    ∀ fs : Files, ¬∀ b ∈ Batch.clash, fs.readText (pathIn "." (b.intent, b.part))
      = .ok (linesText (delivered Batch.clash b.intent b.part)) := by
  have hpath : pathIn "." ("a", .testing) = pathIn "." ("a.test", .training) :=
    (pathIn_eq_iff (by decide) (by decide)).mpr (.inr (.inr ⟨by decide, rfl, rfl⟩))
  refine ⟨by cbv, hpath, ?_, ?_⟩
  · have hwritable : ∀ b ∈ Batch.clash, Writable "." (fileName b.intent b.part) := by
      have htest : Writable "." (fileName "a" .testing) :=
        ⟨isName_fileName (by decide) _, by decide, by decide, by decide⟩
      have htraining : Writable "." (fileName "a.test" .training) :=
        ⟨isName_fileName (by decide) _, by decide, by decide, by decide⟩
      simp [Batch.clash, htest, htraining]
    exact ((tracks_nothing "." {}).takes_of_writable (leads_here rfl)
      fun b hb => ⟨hwritable b hb, ne_directory_of_empty _⟩).1
  · intro fs hall
    have htest := hall ⟨"a", 0, .testing, [wordTokens ["x"]]⟩ (by decide)
    have htraining := hall ⟨"a.test", 0, .training, [wordTokens ["y"]]⟩ (by decide)
    have hlines : linesText (delivered Batch.clash "a" .testing)
        = linesText (delivered Batch.clash "a.test" .training) :=
      Except.ok.inj (htest.symm.trans ((congrArg fs.readText hpath).trans htraining))
    have hne : (linesText (delivered Batch.clash "a" .testing)
        == linesText (delivered Batch.clash "a.test" .training)) = false := by
      cbv
    exact ne_of_beq_false hne hlines

end IntentGrammar
