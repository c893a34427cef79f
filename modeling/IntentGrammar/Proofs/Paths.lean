import IntentGrammar.Proofs.Places

/-!
# Names in a directory

A name without slashes is one step, and a path that joins it to a directory leads one step down from
where the directory is (`Path.steps_join`).  So different names in a directory are different places
(**`Files.find_join_eq_iff`**), and where there is a directory a file with such a name can be made
in it, unless a directory has the name (**`Files.run_create_join`**).
-/

namespace IntentGrammar

open Text

namespace Path

/-! ### Steps of joined paths -/

/-- A name that is one step down: it has no slash, and is not one of the names that mean another
step. -/
structure IsName (name : String) : Prop where
  slash : '/' ∉ name.toList
  step : Step.ofSegment name.toList = .down name

variable {directory name : String}

theorem IsName.ne_empty (h : IsName name) : name ≠ "" := by
  rintro rfl
  have hstep := h.step
  rw [Step.ofSegment] at hstep
  split at hstep
  · cases hstep
  · next hidle => exact hidle rfl

theorem IsName.getLast?_ne (h : IsName name) : name.toList.getLast? ≠ some '/' :=
  fun hlast => h.slash (List.mem_of_getLast? hlast)

theorem IsName.isAbsolute (h : IsName name) : isAbsolute name = false := by
  rw [Path.isAbsolute, decide_eq_false_iff_not]
  exact fun hhead => h.slash (List.mem_of_mem_head? hhead)

/-- Only short segments mean another step than one down. -/
theorem Step.ofSegment_of_long {segment : List Char} (h : 3 ≤ segment.length) :
    Step.ofSegment segment = .down (String.ofList segment) := by
  have hne (short : List Char) (hshort : short.length < 3) : segment ≠ short := by
    rintro rfl
    omega
  rw [ofSegment, if_neg, if_neg]
  · exact hne _ (by decide)
  · rw [isIdle, Bool.or_eq_true, decide_eq_true_eq, decide_eq_true_eq, not_or]
    exact ⟨hne _ (by decide), hne _ (by decide)⟩

/-- A path seen from a directory ends like the path. -/
theorem exists_toList_join (directory path : String) :
    ∃ before, (join directory path).toList = before ++ path.toList := by
  rw [join]
  split
  · exact ⟨[], rfl⟩
  · split
    · exact ⟨_, String.toList_append⟩
    · exact ⟨_, String.toList_append⟩

/-- What stands in front of a name in a directory. -/
def front (directory : String) : List Char :=
  if directory = "" then []
  else if directory.toList.getLast? = some '/' then directory.toList
  else directory.toList ++ ['/']

theorem toList_join (directory : String) (h : isAbsolute name = false) :
    (join directory name).toList = front directory ++ name.toList := by
  rw [join, h, front]
  by_cases hempty : directory = ""
  · rw [if_pos (by simpa using hempty), if_pos hempty]
    rfl
  · rw [if_neg (by simpa using hempty), if_neg hempty]
    split
    · rw [String.toList_append]
    · rw [String.toList_append, String.toList_append]
      rfl

/-- In front of a name there is nothing, or a text that ends with a slash. -/
theorem exists_front_eq (hempty : directory ≠ "") : ∃ before, front directory = before ++ ['/'] ∧
    (directory.toList = before ∨ directory.toList = before ++ ['/']) := by
  rw [front, if_neg hempty]
  split
  · next hslash =>
    have hsplit : directory.toList.dropLast ++ ['/'] = directory.toList :=
      List.dropLast_append_getLast? '/' hslash
    exact ⟨_, hsplit.symm, .inr hsplit.symm⟩
  · exact ⟨_, rfl, .inl rfl⟩

/-- The steps to a directory, without one that stays at the end. -/
def lead (directory : String) : List Step :=
  if directory = "" then [] else (cut '/' (front directory).dropLast).map .ofSegment

/-- The path of a name in a directory goes to the directory and one step down. -/
theorem steps_join (directory : String) (h : IsName name) :
    steps (join directory name) = lead directory ++ [.down name] := by
  have hname : (cut '/' name.toList).map Step.ofSegment = [.down name] := by
    rw [cut_of_notMem h.slash, List.map_singleton, h.step]
  rw [steps, toList_join directory h.isAbsolute, lead]
  by_cases hempty : directory = ""
  · rw [if_pos hempty, front, if_pos hempty]
    exact hname
  · obtain ⟨before, hfront, -⟩ := exists_front_eq hempty
    rw [if_neg hempty, hfront, List.append_assoc, List.singleton_append, cut_append_cons,
      List.map_append, hname, List.dropLast_concat]

/-- The way to a directory has no more than one step that stays at the end. -/
theorem steps_eq_lead (hempty : directory ≠ "") :
    steps directory = lead directory ∨ steps directory = lead directory ++ [.stay] := by
  obtain ⟨before, hfront, hdirectory | hdirectory⟩ := exists_front_eq hempty
  · rw [steps, lead, if_neg hempty, hfront, List.dropLast_concat, hdirectory]
    exact .inl rfl
  · rw [steps, lead, if_neg hempty, hfront, List.dropLast_concat, hdirectory, cut_append_cons,
      List.map_append]
    exact .inr rfl

/-- A name in a directory starts where the directory starts. -/
theorem isAbsolute_join (directory : String) (h : IsName name) :
    isAbsolute (join directory name) = isAbsolute directory := by
  by_cases hempty : directory = ""
  · subst hempty
    rw [join, if_pos (by simp), h.isAbsolute]
    rfl
  · have hchars : directory.toList ≠ [] := by
      rw [Ne, String.toList_eq_nil_iff]
      exact hempty
    have hhead : (front directory ++ name.toList).head? = directory.toList.head? := by
      obtain ⟨c, cs, hcons⟩ := List.exists_cons_of_ne_nil hchars
      rw [front, if_neg hempty, hcons]
      split
      · rfl
      · rfl
    rw [isAbsolute, isAbsolute, toList_join directory h.isAbsolute, hhead]

theorem getLast?_join (directory : String) (h : IsName name) :
    (join directory name).toList.getLast? ≠ some '/' := by
  have hchars : name.toList ≠ [] := by
    rw [Ne, String.toList_eq_nil_iff]
    exact h.ne_empty
  rw [toList_join directory h.isAbsolute, List.getLast?_append_of_ne_nil _ hchars]
  exact h.getLast?_ne

/-- Different relative paths are different seen from a directory. -/
theorem join_inj {path path' : String} (h : isAbsolute path = false)
    (h' : isAbsolute path' = false) :
    join directory path = join directory path' ↔ path = path' := by
  rw [← String.toList_inj, toList_join directory h, toList_join directory h',
    List.append_cancel_left_eq, String.toList_inj]

/-- A path is taken apart into the way to its last name, that name, and steps that stay. -/
theorem steps_of_approach (path : String) : ∃ k,
    steps path = (approach path).1 ++ (approach path).2 :: List.replicate k .stay := by
  have hempties (segments : List (List Char)) (h : ∀ s ∈ segments, s.isEmpty = true) :
      segments.map Step.ofSegment = List.replicate segments.length .stay := by
    rw [List.eq_replicate_iff]
    refine ⟨by simp, fun step hstep => ?_⟩
    obtain ⟨segment, hsegment, rfl⟩ := List.mem_map.mp hstep
    rw [List.isEmpty_iff.mp (h segment hsegment)]
    rfl
  have hsplit :=
    List.takeWhile_append_dropWhile (p := List.isEmpty) (l := (cut '/' path.toList).reverse)
  have hempty : ∀ s ∈ (cut '/' path.toList).reverse.takeWhile List.isEmpty, s.isEmpty = true :=
    fun s hs => List.mem_takeWhile_imp hs
  rw [approach]
  generalize (cut '/' path.toList).reverse.takeWhile List.isEmpty = idle at hsplit hempty
  have hcut := congrArg List.reverse hsplit
  rw [List.reverse_reverse, List.reverse_append] at hcut
  have hidle : idle.reverse.map Step.ofSegment = List.replicate idle.reverse.length .stay :=
    hempties _ fun s hs => hempty s (List.mem_reverse.mp hs)
  rcases hdrop : (cut '/' path.toList).reverse.dropWhile List.isEmpty with _ | ⟨segment, rest⟩
  · rw [hdrop, List.reverse_nil, List.nil_append] at hcut
    have hlength : idle.reverse.length ≠ 0 := by
      rw [hcut, Ne, List.length_eq_zero_iff]
      exact cut_ne_nil '/' path.toList
    obtain ⟨k, hk⟩ := Nat.exists_eq_succ_of_ne_zero hlength
    refine ⟨k, ?_⟩
    rw [steps, ← hcut, hidle, hk, List.replicate_succ]
    rfl
  · rw [hdrop, List.reverse_cons, List.append_assoc] at hcut
    refine ⟨idle.reverse.length, ?_⟩
    rw [steps, ← hcut, List.map_append, List.map_append, hidle]
    rfl

end Path

namespace Files

variable {fs : Files} {directory name name' : String} {base place : Place}

/-! ### Names in a directory -/

/-- A step down leads to something with a name that is short enough. -/
theorem child_eq_ok (h : fs.child base name = .ok place) :
    ¬maxName < name.utf8ByteSize ∧ (fs.entry? (base ++ [name])).isSome ∧
      place = base ++ [name] := by
  rw [child] at h
  split at h
  · cases h
  · next hshort =>
    split at h
    · cases h
    · next hthere =>
      cases h
      exact ⟨hshort, by simpa [Option.isSome_iff_ne_none] using hthere, rfl⟩

theorem walk_down (h : fs.walk base [.down name] = .ok place) : place = base ++ [name] := by
  simp only [walk] at h
  split at h
  · obtain ⟨below, hbelow, hdone⟩ := bind_eq_ok_iff.mp h
    cases hdone
    exact (child_eq_ok hbelow).2.2
  · cases h

/-- A path with a long ending without slashes leads to a place whose name ends so. -/
theorem exists_name_of_find {path : String} {before ending : List Char} (hslash : '/' ∉ ending)
    (hlong : 3 ≤ ending.length) (hpath : path.toList = before ++ ending)
    (hfind : fs.find path = .ok place) :
    ∃ name, place.getLast? = some name ∧ ending <:+ name.toList := by
  obtain ⟨origin, -, hwalk⟩ := bind_eq_ok_iff.mp hfind
  obtain ⟨segment, hlast⟩ := exists_getLast?_cut_append hslash before
  have hsteps : Path.steps path = (Path.steps path).dropLast
      ++ [.down (String.ofList (segment ++ ending))] := by
    have hstep : (Path.steps path).getLast?
        = some (.down (String.ofList (segment ++ ending))) := by
      rw [Path.steps, hpath, List.getLast?_map, hlast, Option.map_some,
        Path.Step.ofSegment_of_long]
      rw [List.length_append]
      omega
    rw [List.dropLast_append_getLast? _ hstep]
  rw [hsteps] at hwalk
  obtain ⟨base, -, hdown⟩ := walk_append_eq_ok_iff.mp hwalk
  rw [walk_down hdown]
  refine ⟨_, List.getLast?_concat, segment, ?_⟩
  rw [String.toList_ofList]

/-- A name in a directory is found one step below it. -/
theorem find_join (h : Path.IsName name) (hfind : fs.find (Path.join directory name) = .ok place) :
    ∃ origin base, fs.start (Path.join directory name) = .ok origin ∧
      fs.walk origin (Path.lead directory) = .ok base ∧ place = base ++ [name] := by
  obtain ⟨origin, horigin, hwalk⟩ := bind_eq_ok_iff.mp hfind
  rw [Path.steps_join directory h] at hwalk
  obtain ⟨base, hbase, hdown⟩ := walk_append_eq_ok_iff.mp hwalk
  exact ⟨origin, base, horigin, hbase, walk_down hdown⟩

theorem start_eq_ok {path : String} {origin : Place} (h : fs.start path = .ok origin) :
    path ≠ "" ∧ origin = if Path.isAbsolute path then [] else fs.workDir := by
  rw [start] at h
  split at h
  · cases h
  · split at h
    · cases h
    · next hpath =>
      split at h
      · cases h
      · cases h
        exact ⟨hpath, rfl⟩

/-- **Different names in a directory** are different places. -/
theorem find_join_eq_iff {place' : Place} (h : Path.IsName name) (h' : Path.IsName name')
    (hfind : fs.find (Path.join directory name) = .ok place)
    (hfind' : fs.find (Path.join directory name') = .ok place') :
    place = place' ↔ name = name' := by
  obtain ⟨origin, base, horigin, hbase, rfl⟩ := find_join h hfind
  obtain ⟨origin', base', horigin', hbase', rfl⟩ := find_join h' hfind'
  have hsame : origin = origin' := by
    rw [(start_eq_ok horigin).2, (start_eq_ok horigin').2, Path.isAbsolute_join directory h,
      Path.isAbsolute_join directory h']
  subst hsame
  rw [hbase] at hbase'
  cases hbase'
  simp

/-! ### Where there is a directory -/

/-- A path leads to a directory. -/
def Leads (fs : Files) (path : String) (base : Place) : Prop :=
  fs.find path = .ok base ∧ fs.entry? base = some .directory

theorem walk_of_stay {steps : List Path.Step} {origin : Place}
    (h : fs.walk origin (steps ++ [.stay]) = .ok place) : fs.walk origin steps = .ok place := by
  obtain ⟨p, hp, hstay⟩ := walk_append_eq_ok_iff.mp h
  simp only [walk] at hstay
  split at hstay
  · cases hstay
    exact hp
  · cases hstay

/-- The way to a directory leads to it. -/
theorem Leads.walk_lead (h : fs.Leads directory base) :
    ∃ origin, fs.start directory = .ok origin ∧
      fs.walk origin (Path.lead directory) = .ok base := by
  obtain ⟨origin, horigin, hwalk⟩ := bind_eq_ok_iff.mp h.1
  refine ⟨origin, horigin, ?_⟩
  rcases Path.steps_eq_lead (start_eq_ok horigin).1 with hsteps | hsteps
  · rwa [hsteps] at hwalk
  · rw [hsteps] at hwalk
    exact walk_of_stay hwalk

/-- Where the way starts at the root, the root is a directory. -/
theorem leads_here (h : fs.workDir = []) : fs.Leads "." [] := by
  refine ⟨?_, entry?_nil fs⟩
  have hstart : fs.start "." = .ok [] := by
    rw [start, h]
    decide
  have hsteps : Path.steps "." = [.stay] := by decide
  rw [find, hstart, hsteps]
  simp only [bind, Except.bind, walk, if_pos (entry?_nil fs)]

theorem Leads.of_grows {fs' : Files} (h : fs.Leads directory base) (hgrows : Grows fs fs') :
    fs'.Leads directory base :=
  ⟨hgrows.find h.1, hgrows.directory _ h.2⟩

/-- A name that a file may be given, in a directory whose path is short enough. -/
structure Writable (directory name : String) : Prop where
  isName : Path.IsName name
  short : name.utf8ByteSize ≤ maxName
  length : (Path.join directory name).utf8ByteSize < maxPath
  noNul : (Path.join directory name).toList.any (·.toNat = 0) = false

/-- A name in a directory starts where the directory starts. -/
theorem start_join {origin : Place} (h : Writable directory name)
    (hstart : fs.start directory = .ok origin) :
    fs.start (Path.join directory name) = .ok origin := by
  have hpath : Path.join directory name ≠ "" := by
    intro hempty
    have hchars := Path.toList_join directory h.isName.isAbsolute
    rw [hempty] at hchars
    have hname := (List.append_eq_nil_iff.mp hchars.symm).2
    exact h.isName.ne_empty (String.toList_eq_nil_iff.mp hname)
  rw [start, if_neg (by rw [h.noNul]; exact Bool.false_ne_true), if_neg hpath, if_neg (Nat.not_le.mpr h.length),
    Path.isAbsolute_join directory h.isName, (start_eq_ok hstart).2]

/-- **What a name in a directory leads to** is what stands there. -/
theorem find_join_eq_ok_iff (h : Writable directory name) (hdir : fs.Leads directory base) :
    fs.find (Path.join directory name) = .ok place ↔
      place = base ++ [name] ∧ (fs.entry? (base ++ [name])).isSome := by
  obtain ⟨origin, horigin, hwalk⟩ := hdir.walk_lead
  have hfind : fs.find (Path.join directory name)
      = fs.walk origin (Path.lead directory ++ [.down name]) := by
    rw [find, start_join h horigin, Path.steps_join directory h.isName]
    rfl
  rw [hfind, walk_append_eq_ok_iff]
  constructor
  · rintro ⟨base', hbase', hdown⟩
    obtain rfl : base = base' := Except.ok.inj (hwalk.symm.trans hbase')
    simp only [walk, if_pos hdir.2] at hdown
    obtain ⟨below, hbelow, hdone⟩ := bind_eq_ok_iff.mp hdown
    cases hdone
    exact ⟨(child_eq_ok hbelow).2.2, (child_eq_ok hbelow).2.1⟩
  · rintro ⟨rfl, hthere⟩
    refine ⟨base, hwalk, ?_⟩
    have hchild : fs.child base name = .ok (base ++ [name]) := by
      rw [child, if_neg (Nat.not_lt.mpr h.short), if_neg]
      simpa [Option.isSome_iff_ne_none] using hthere
    simp only [walk, if_pos hdir.2, hchild]
    rfl

/-- Where nothing stands a name leads to nothing. -/
theorem has_join_of_none (h : Writable directory name) (hdir : fs.Leads directory base)
    (hnone : fs.entry? (base ++ [name]) = none) : fs.has (Path.join directory name) = false := by
  rw [has, entryAt?]
  rcases hfind : fs.find (Path.join directory name) with fault | place
  · rfl
  · obtain ⟨-, hthere⟩ := (find_join_eq_ok_iff h hdir).mp hfind
    rw [hnone] at hthere
    cases hthere

theorem approach_join (h : Writable directory name) (hdir : fs.Leads directory base) :
    fs.approach (Path.join directory name) = .ok (base, .down name) := by
  obtain ⟨origin, horigin, hwalk⟩ := hdir.walk_lead
  have hstart := start_join h horigin
  have happroach : Path.approach (Path.join directory name)
      = (Path.lead directory, .down name) := by
    have hsteps := steps_eq_approach (start_eq_ok hstart).1 (Path.getLast?_join directory h.isName)
    rw [Path.steps_join directory h.isName] at hsteps
    obtain ⟨hlead, hlast⟩ := List.append_inj' hsteps rfl
    exact Prod.ext hlead.symm (List.singleton_inj.mp hlast).symm
  rw [approach, happroach]
  refine bind_eq_ok_iff.mpr ⟨origin, hstart, bind_eq_ok_iff.mpr ⟨base, hwalk, ?_⟩⟩
  rw [hdir.2]
  exact if_neg (Nat.not_lt.mpr h.short)

/-- **A file can be made** in a directory, unless a directory has the name. -/
theorem run_create_join (h : Writable directory name) (hdir : fs.Leads directory base)
    (hfree : fs.entry? (base ++ [name]) ≠ some .directory) :
    (create (Path.join directory name)).run.run fs
      = (.ok (base ++ [name]), fs.put (base ++ [name]) (.file .empty)) := by
  rw [create, run_get_bind, approach_join h hdir]
  show (ExceptT.run (do
      if (Path.join directory name).toList.getLast? = some '/'
          || fs.entry? (base ++ [name]) = some .directory then
        throw .isDirectory
      set (fs.put (base ++ [name]) (.file .empty))
      return base ++ [name] : Filing Place)).run fs = _
  rw [if_neg (by simp [Path.getLast?_join directory h.isName, hfree])]
  rfl

/-- A text can be saved where a file can be made. -/
theorem exists_run_save_join (h : Writable directory name) (hdir : fs.Leads directory base)
    (hfree : fs.entry? (base ++ [name]) ≠ some .directory) (text : String) :
    ∃ fs', (save (Path.join directory name) text).run.run fs = (.ok (), fs') := by
  rw [save, run_bind_of_ok (run_create_join h hdir hfree)]
  exact ⟨_, rfl⟩

/-- Where there is a directory none is made. -/
theorem Leads.run_makeDirectory (h : fs.Leads directory base) :
    (makeDirectory directory).run.run fs = (.error .alreadyExists, fs) := by
  obtain ⟨origin, horigin, hwalk⟩ := bind_eq_ok_iff.mp h.1
  obtain ⟨k, hsteps⟩ := Path.steps_of_approach directory
  rw [hsteps] at hwalk
  obtain ⟨above, habove, hlast⟩ := walk_append_eq_ok_iff.mp hwalk
  generalize hlead : Path.approach directory = lead at habove hlast
  obtain ⟨steps, last⟩ := lead
  simp only [walk] at hlast
  split at hlast
  · next habovedir =>
    have happroach : fs.approach directory = .ok (above, last) := by
      rw [approach, hlead]
      refine bind_eq_ok_iff.mpr ⟨origin, horigin, bind_eq_ok_iff.mpr ⟨above, habove, ?_⟩⟩
      rw [habovedir]
      cases last with
      | stay => rfl
      | up => rfl
      | down name =>
        obtain ⟨below, hbelow, -⟩ := bind_eq_ok_iff.mp hlast
        exact if_neg (child_eq_ok hbelow).1
    rw [makeDirectory, run_get_bind, happroach]
    cases last with
    | stay => rfl
    | up => rfl
    | down name =>
      obtain ⟨below, hbelow, -⟩ := bind_eq_ok_iff.mp hlast
      show (ExceptT.run (do
        if (fs.entry? (above ++ [name])).isSome then throw .alreadyExists
        set (fs.put (above ++ [name]) .directory) : Filing Unit)).run fs = _
      rw [if_pos (child_eq_ok hbelow).2.1]
      rfl
  · cases hlast

/-- A directory that is there need not be made. -/
theorem Leads.run_makeDirectories (h : fs.Leads directory base) :
    (makeDirectories directory).run.run fs = (.ok (), fs) := by
  have hisDirectory : fs.isDirectory directory = true := by
    rw [isDirectory, entryAt?, h.1]
    exact decide_eq_true h.2
  have hensure : (ensureDirectory directory).run.run fs = (.ok (), fs) := by
    rw [ensureDirectory, run_tryCatch, h.run_makeDirectory]
    show (ExceptT.run (do
      if FileFault.alreadyExists = .alreadyExists && (← get).isDirectory directory then return
      throw .alreadyExists : Filing Unit)).run fs = _
    rw [run_get_bind, if_pos (by rw [hisDirectory]; rfl)]
    rfl
  rw [makeDirectories, makeOutward, if_neg]
  · rw [run_tryCatch, hensure]
  · obtain ⟨origin, horigin, -⟩ := h.walk_lead
    exact (start_eq_ok horigin).1

end Files

end IntentGrammar
