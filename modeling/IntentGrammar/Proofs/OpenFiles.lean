import IntentGrammar.LineFiles
import IntentGrammar.Proofs.Places

/-!
# Open files

What an open file has written and what it holds back are together what has been put into it, as
long as it goes on at the end of what stands at its place (`OpenFile.Holds`).  A stretch of work on
it puts bytes behind what it holds, and changes nothing at other places (`OpenFile.Adds`); such
stretches can be put together, whatever of the bytes is held back in between.

Open files are kept in an order of their keys, so no two have the same key.  When what they hold
back is written, one after the other, each whose place no other has is left with all that it held
(**`content?_flushed`**).
-/

namespace IntentGrammar

open Files

/-! ### Lines -/

/-- The lines of utterances. -/
def linesText (us : List Utterance) : String :=
  String.join (us.map fun u => (Utterance.toJson u).text ++ "\n")

theorem linesText_append (us vs : List Utterance) :
    linesText (us ++ vs) = linesText us ++ linesText vs := by
  rw [linesText, List.map_append, String.join_append]
  rfl

theorem toUTF8_linesText_append (us vs : List Utterance) :
    (linesText (us ++ vs)).toUTF8 = (linesText us).toUTF8 ++ (linesText vs).toUTF8 := by
  rw [linesText_append, String.toUTF8_eq_toByteArray, String.toByteArray_append]
  rfl

namespace OpenFile

/-! ### What an open file holds -/

/-- What stands at the place of an open file, which goes on at its end, and what is held back are
together these bytes. -/
def Holds (f : OpenFile) (fs : Files) (bytes : ByteArray) : Prop :=
  ∃ sent, fs.content? f.place = some sent ∧ sent.size = f.offset ∧ sent ++ f.held = bytes

/-- A stretch of work on an open file that adds bytes to it. -/
structure Adds (bytes : ByteArray) (f : OpenFile) (fs : Files) (f' : OpenFile) (fs' : Files) :
    Prop where
  place : f'.place = f.place
  changes : ChangesAt f.place fs fs'
  holds (before : ByteArray) : f.Holds fs before → f'.Holds fs' (before ++ bytes)

variable {f f₁ f' : OpenFile} {fs fs₁ fs' : Files} {bytes more : ByteArray}

namespace Adds

theorem refl (f : OpenFile) (fs : Files) : Adds .empty f fs f fs where
  place := rfl
  changes := .refl _ _
  holds before h := by rwa [ByteArray.append_empty]

theorem trans (h : Adds bytes f fs f₁ fs₁) (h' : Adds more f₁ fs₁ f' fs') :
    Adds (bytes ++ more) f fs f' fs' where
  place := h'.place.trans h.place
  changes := h.changes.trans (h.place ▸ h'.changes)
  holds before hbefore := by
    rw [← ByteArray.append_assoc]
    exact h'.holds _ (h.holds before hbefore)

theorem isSome (h : Adds bytes f fs f' fs') (hfile : (fs.content? f.place).isSome) :
    (fs'.content? f'.place).isSome := by
  rw [h.place]
  exact h.changes.file hfile

end Adds

/-! ### Writing -/

section Writing

variable {sent : ByteArray}

/-- What becomes of an open file by bytes that are written at once. -/
theorem run_send (f : OpenFile) (bytes : ByteArray) (fs : Files) :
    (f.send bytes).run fs = (f, fs) ∧ bytes = .empty ∨
      (f.send bytes).run fs
        = ({ f with offset := f.offset + bytes.size }, fs.writeAt f.place f.offset bytes) := by
  rw [send]
  split
  · next hempty => exact .inl ⟨rfl, ByteArray.size_eq_zero_iff.mp (beq_iff_eq.mp hempty)⟩
  · exact .inr rfl

/-- Nothing else is touched when bytes are written at once. -/
theorem of_send (hrun : (f.send bytes).run fs = (f', fs')) (hfile : (fs.content? f.place).isSome) :
    f'.place = f.place ∧ f'.held = f.held ∧ ChangesAt f.place fs fs' := by
  rcases run_send f bytes fs with ⟨hsend, -⟩ | hsend
  · rw [hsend] at hrun
    cases hrun
    exact ⟨rfl, rfl, .refl _ _⟩
  · rw [hsend] at hrun
    cases hrun
    exact ⟨rfl, rfl, changesAt_writeAt hfile f.offset bytes⟩

/-- Bytes that are written at once come behind those that have been. -/
theorem content?_send (hrun : (f.send bytes).run fs = (f', fs'))
    (hcontent : fs.content? f.place = some sent) (hsize : sent.size = f.offset) :
    fs'.content? f'.place = some (sent ++ bytes) ∧ (sent ++ bytes).size = f'.offset := by
  rcases run_send f bytes fs with ⟨hsend, rfl⟩ | hsend
  · rw [hsend] at hrun
    cases hrun
    rw [ByteArray.append_empty]
    exact ⟨hcontent, hsize⟩
  · rw [hsend] at hrun
    cases hrun
    rw [ByteArray.size_append, hsize, ← hsize]
    exact ⟨content?_writeAt hcontent bytes, rfl⟩

/-- Bytes may be written at once if nothing is held back. -/
theorem adds_send (hrun : (f.send bytes).run fs = (f', fs'))
    (hfile : (fs.content? f.place).isSome) (hheld : f.held = .empty) :
    Adds bytes f fs f' fs' := by
  obtain ⟨hplace, hsame, hchanges⟩ := of_send hrun hfile
  refine ⟨hplace, hchanges, ?_⟩
  rintro before ⟨sent, hcontent, hsize, rfl⟩
  obtain ⟨hcontent', hsize'⟩ := content?_send hrun hcontent hsize
  refine ⟨sent ++ bytes, hcontent', hsize', ?_⟩
  rw [hsame, hheld, ByteArray.append_empty, ByteArray.append_empty]

/-- What is held back is written, and then nothing is. -/
theorem adds_flush (hrun : f.flush.run fs = (f', fs')) (hfile : (fs.content? f.place).isSome) :
    Adds .empty f fs f' fs' ∧ f'.held = .empty := by
  rcases hsend : (f.send f.held).run fs with ⟨g, fs₁⟩
  have hflush : f.flush.run fs = ({ g with held := .empty }, fs₁) := by
    rw [flush, StateT.run_bind, hsend]
    rfl
  rw [hflush] at hrun
  cases hrun
  obtain ⟨hplace, -, hchanges⟩ := of_send hsend hfile
  refine ⟨⟨hplace, hchanges, ?_⟩, rfl⟩
  rintro before ⟨sent, hcontent, hsize, rfl⟩
  obtain ⟨hcontent', hsize'⟩ := content?_send hsend hcontent hsize
  exact ⟨sent ++ f.held, hcontent', hsize', rfl⟩

/-- Bytes that are held back. -/
theorem adds_hold (f : OpenFile) (fs : Files) (bytes : ByteArray) :
    Adds bytes f fs { f with held := f.held ++ bytes } fs where
  place := rfl
  changes := .refl _ _
  holds := by
    rintro before ⟨sent, hcontent, hsize, rfl⟩
    exact ⟨sent, hcontent, hsize, ByteArray.append_assoc.symm⟩

/-- **Bytes are taken up** behind those that were before, held back or not. -/
theorem adds_write (hrun : (f.write bytes).run fs = (f', fs'))
    (hfile : (fs.content? f.place).isSome) : Adds bytes f fs f' fs' := by
  -- with room for the bytes, or with nothing held back any more
  have htail {g : OpenFile} {fs₁ : Files} (hfile : (fs₁.content? g.place).isSome)
      (hroom : capacity ≤ bytes.size → g.held = .empty)
      (hrun : (if capacity ≤ bytes.size then g.send bytes
        else return { g with held := g.held ++ bytes } : StateM Files OpenFile).run fs₁
          = (f', fs')) : Adds bytes g fs₁ f' fs' := by
    split at hrun
    · next hlarge => exact adds_send hrun hfile (hroom hlarge)
    · cases hrun
      exact adds_hold g _ bytes
  rw [write] at hrun
  split at hrun
  · rcases hflush : f.flush.run fs with ⟨g, fs₁⟩
    rw [StateT.run_bind, hflush] at hrun
    obtain ⟨hadds, hheld⟩ := adds_flush hflush hfile
    have hall := hadds.trans (htail (hadds.isSome hfile) (fun _ => hheld) hrun)
    rwa [ByteArray.empty_append] at hall
  · next hroom =>
    refine htail hfile (fun hlarge => ?_) hrun
    apply ByteArray.size_eq_zero_iff.mp
    omega

/-- An utterance is taken up as a line. -/
theorem adds_writeLine {u : Utterance} (hrun : (f.writeLine u).run fs = (f', fs'))
    (hfile : (fs.content? f.place).isSome) : Adds (linesText [u]).toUTF8 f fs f' fs' := by
  rcases hfirst : (f.write (Utterance.toJson u).text.toUTF8).run fs with ⟨g, fs₁⟩
  rw [writeLine, StateT.run_bind, hfirst] at hrun
  have hadds := adds_write hfirst hfile
  have hall := hadds.trans (adds_write hrun (hadds.isSome hfile))
  rwa [String.toUTF8_eq_toByteArray, String.toUTF8_eq_toByteArray, ← String.toByteArray_append]
    at hall

/-- Utterances are taken up as lines, in their order. -/
theorem adds_writeLines {us : List Utterance} (hrun : (f.writeLines us).run fs = (f', fs'))
    (hfile : (fs.content? f.place).isSome) : Adds (linesText us).toUTF8 f fs f' fs' := by
  induction us generalizing f fs with
  | nil =>
    cases hrun
    exact .refl _ _
  | cons u us ih =>
    rcases hfirst : (f.writeLine u).run fs with ⟨g, fs₁⟩
    rw [writeLines, List.foldlM_cons, StateT.run_bind, hfirst] at hrun
    have hadds := adds_writeLine hfirst hfile
    have hall := hadds.trans (ih hrun (hadds.isSome hfile))
    rwa [← toUTF8_linesText_append, List.singleton_append] at hall

end Writing

end OpenFile

/-! ### Files by their keys -/

namespace LineFiles

variable {key key' : String × Part} {f g : OpenFile} {ofs : List ((String × Part) × OpenFile)}

/-- Open files in the order of their keys. -/
def Ordered (ofs : List ((String × Part) × OpenFile)) : Prop :=
  ofs.Pairwise fun x y => precedes x.1 y.1 = true

theorem precedes_iff {a b : String × Part} : precedes a b = true ↔
    a.1 < b.1 ∨ a.1 = b.1 ∧ a.2 = .training ∧ b.2 = .testing := by
  simp [precedes, and_assoc]

theorem precedes_trans {a b c : String × Part} (hab : precedes a b = true)
    (hbc : precedes b c = true) : precedes a c = true := by
  rw [precedes_iff] at hab hbc ⊢
  rcases hab with hab | ⟨hab, -, htesting⟩
  · rcases hbc with hbc | ⟨hbc, -, -⟩
    · exact .inl (hab.trans hbc)
    · exact .inl (hbc ▸ hab)
  · rcases hbc with hbc | ⟨-, htraining, -⟩
    · exact .inl (hab ▸ hbc)
    · rw [htesting] at htraining
      cases htraining

theorem precedes_irrefl (a : String × Part) : precedes a a = false := by
  rw [Bool.eq_false_iff, Ne, precedes_iff]
  rintro (hlt | ⟨-, htraining, htesting⟩)
  · exact lt_irrefl _ hlt
  · rw [htraining] at htesting
    cases htesting

/-- Of two keys one comes before the other. -/
theorem precedes_of_ne {a b : String × Part} (hne : a ≠ b) (hnot : precedes a b = false) :
    precedes b a = true := by
  rw [Bool.eq_false_iff, Ne, precedes_iff, not_or] at hnot
  rw [precedes_iff]
  obtain ⟨a, p⟩ := a
  obtain ⟨b, q⟩ := b
  rcases Std.lt_trichotomy a b with hlt | rfl | hgt
  · exact absurd hlt hnot.1
  · refine .inr ⟨rfl, ?_⟩
    cases p <;> cases q
    · exact absurd rfl hne
    · exact absurd ⟨rfl, rfl, rfl⟩ hnot.2
    · exact ⟨rfl, rfl⟩
    · exact absurd rfl hne
  · exact .inl hgt

theorem lookup_cons_eq_ite (key key' : String × Part) (f : OpenFile)
    (ofs : List ((String × Part) × OpenFile)) :
    ((key, f) :: ofs).lookup key' = if key' = key then some f else ofs.lookup key' := by
  rw [List.lookup_cons]
  by_cases h : key' = key
  · rw [if_pos h, beq_iff_eq.mpr h]
  · rw [if_neg h, beq_eq_false_iff_ne.mpr h]

/-- A file that is put in its place is found by its key, and the others by theirs. -/
theorem lookup_insert (key key' : String × Part) (f : OpenFile)
    (ofs : List ((String × Part) × OpenFile)) :
    (insert key f ofs).lookup key' = if key' = key then some f else ofs.lookup key' := by
  induction ofs with
  | nil => exact lookup_cons_eq_ite key key' f []
  | cons x ofs ih =>
    obtain ⟨other, g⟩ := x
    rw [insert]
    split
    · next hkey =>
      rw [lookup_cons_eq_ite, lookup_cons_eq_ite, hkey]
      split
      · rfl
      · rfl
    · next hkey =>
      split
      · exact lookup_cons_eq_ite key key' f _
      · rw [lookup_cons_eq_ite, lookup_cons_eq_ite, ih]
        by_cases hother : key' = other
        · have hne : key' ≠ key := fun heq => hkey (heq.symm.trans hother)
          rw [if_pos hother, if_neg hne, if_pos hother]
        · rw [if_neg hother, if_neg hother]

theorem mem_insert {x : (String × Part) × OpenFile} (h : x ∈ insert key f ofs) :
    x = (key, f) ∨ x ∈ ofs := by
  induction ofs with
  | nil => exact .inl (List.mem_singleton.mp h)
  | cons y ofs ih =>
    obtain ⟨other, g⟩ := y
    rw [insert] at h
    split at h
    · rcases List.mem_cons.mp h with rfl | h
      · exact .inl rfl
      · exact .inr (List.mem_cons_of_mem _ h)
    · split at h
      · rcases List.mem_cons.mp h with rfl | h
        · exact .inl rfl
        · exact .inr h
      · rcases List.mem_cons.mp h with rfl | h
        · exact .inr List.mem_cons_self
        · rcases ih h with rfl | h
          · exact .inl rfl
          · exact .inr (List.mem_cons_of_mem _ h)

/-- Putting a file in its place keeps the order. -/
theorem Ordered.insert (h : Ordered ofs) (key : String × Part) (f : OpenFile) :
    Ordered (insert key f ofs) := by
  induction ofs with
  | nil => exact List.pairwise_singleton _ _
  | cons x ofs ih =>
    obtain ⟨other, g⟩ := x
    obtain ⟨hfirst, hrest⟩ := List.pairwise_cons.mp h
    rw [LineFiles.insert]
    split
    · next hkey =>
      subst hkey
      exact List.pairwise_cons.mpr ⟨hfirst, hrest⟩
    · next hkey =>
      split
      · next hbefore =>
        refine List.pairwise_cons.mpr ⟨fun y hy => ?_, h⟩
        rcases List.mem_cons.mp hy with rfl | hy
        · exact hbefore
        · exact precedes_trans hbefore (hfirst y hy)
      · next hbefore =>
        refine List.pairwise_cons.mpr ⟨fun y hy => ?_, ih hrest⟩
        rcases mem_insert hy with rfl | hy
        · exact precedes_of_ne hkey (by simpa using hbefore)
        · exact hfirst y hy

/-- A file is found by its key if it is there. -/
theorem Ordered.lookup_eq_some_iff (h : Ordered ofs) :
    ofs.lookup key = some f ↔ (key, f) ∈ ofs := by
  induction ofs with
  | nil => exact ⟨nofun, nofun⟩
  | cons x ofs ih =>
    obtain ⟨other, g⟩ := x
    obtain ⟨hfirst, hrest⟩ := List.pairwise_cons.mp h
    rw [lookup_cons_eq_ite, List.mem_cons]
    split
    · next hkey =>
      subst hkey
      constructor
      · rintro ⟨⟩
        exact .inl rfl
      · rintro (heq | hmem)
        · cases heq
          rfl
        · -- another file with the key would come behind itself
          have hself := hfirst _ hmem
          rw [precedes_irrefl] at hself
          cases hself
    · next hkey =>
      refine (ih hrest).trans ⟨.inr, ?_⟩
      rintro (heq | hmem)
      · cases heq
        exact absurd rfl hkey
      · exact hmem

/-! ### Writing what is held back -/

/-- Write what the files hold back, one after the other. -/
def flushAll (ofs : List ((String × Part) × OpenFile)) :
    StateM Files (List ((String × Part) × OpenFile)) :=
  ofs.mapM fun (key, f) => do return (key, ← f.flush)

/-- The files once that is done. -/
def flushed (ofs : List ((String × Part) × OpenFile)) (fs : Files) : Files :=
  ((flushAll ofs).run fs).2

variable {fs : Files}

theorem flushed_cons (x : (String × Part) × OpenFile) (ofs : List ((String × Part) × OpenFile))
    (fs : Files) : flushed (x :: ofs) fs = flushed ofs (x.2.flush.run fs).2 := by
  rw [flushed, flushed, flushAll, flushAll, List.mapM_cons]
  rfl

/-- The place of one file is written, and the others are still files. -/
theorem changesAt_flush {x : (String × Part) × OpenFile}
    (h : ∀ y ∈ x :: ofs, (fs.content? y.2.place).isSome) :
    ChangesAt x.2.place fs (x.2.flush.run fs).2 ∧
      ∀ y ∈ ofs, ((x.2.flush.run fs).2.content? y.2.place).isSome := by
  have hfile := h x List.mem_cons_self
  have hchanges : ChangesAt x.2.place fs (x.2.flush.run fs).2 := by
    rcases hrun : x.2.flush.run fs with ⟨g, fs₁⟩
    exact (OpenFile.adds_flush hrun hfile).1.changes
  exact ⟨hchanges, fun y hy => (hchanges.grows hfile).file _ (h y (List.mem_cons_of_mem x hy))⟩

/-- To write what is held back changes only files. -/
theorem onlyFiles_flushed (h : ∀ x ∈ ofs, (fs.content? x.2.place).isSome) :
    OnlyFiles fs (flushed ofs fs) := by
  induction ofs generalizing fs with
  | nil => exact .refl fs
  | cons x ofs ih =>
    rw [flushed_cons]
    obtain ⟨hchanges, hfiles⟩ := changesAt_flush h
    exact (hchanges.onlyFiles (h x List.mem_cons_self)).trans (ih hfiles)

/-- At other places nothing is written. -/
theorem content?_flushed_of_ne {place : Place} (h : ∀ x ∈ ofs, (fs.content? x.2.place).isSome)
    (hplace : ∀ x ∈ ofs, x.2.place ≠ place) :
    (flushed ofs fs).content? place = fs.content? place := by
  induction ofs generalizing fs with
  | nil => rfl
  | cons x ofs ih =>
    rw [flushed_cons]
    obtain ⟨hchanges, hfiles⟩ := changesAt_flush h
    rw [ih hfiles fun y hy => hplace y (List.mem_cons_of_mem x hy),
      hchanges.content? fun heq => hplace x List.mem_cons_self heq.symm]

/-- **A file whose place no other has** is left with all that it held. -/
theorem content?_flushed {x : (String × Part) × OpenFile} {bytes : ByteArray}
    (hordered : Ordered ofs) (h : ∀ y ∈ ofs, (fs.content? y.2.place).isSome) (hx : x ∈ ofs)
    (halone : ∀ y ∈ ofs, y.2.place = x.2.place → y.1 = x.1) (hholds : x.2.Holds fs bytes) :
    (flushed ofs fs).content? x.2.place = some bytes := by
  induction ofs generalizing fs with
  | nil => cases hx
  | cons y ofs ih =>
    obtain ⟨hfirst, hrest⟩ := List.pairwise_cons.mp hordered
    obtain ⟨hchanges, hfiles⟩ := changesAt_flush h
    have hkeys (z) (hz : z ∈ ofs) : z.1 ≠ y.1 := by
      intro heq
      have hbefore := hfirst z hz
      rw [heq, precedes_irrefl] at hbefore
      cases hbefore
    rw [flushed_cons]
    rcases List.mem_cons.mp hx with rfl | hx
    · rcases hrun : x.2.flush.run fs with ⟨g, fs₁⟩
      rw [hrun] at hfiles
      obtain ⟨hadds, hheld⟩ := OpenFile.adds_flush hrun (h x List.mem_cons_self)
      obtain ⟨sent, hcontent, -, hbytes⟩ := hadds.holds bytes hholds
      rw [hheld, ByteArray.append_empty, ByteArray.append_empty] at hbytes
      rw [hadds.place, hbytes] at hcontent
      rw [content?_flushed_of_ne hfiles, hcontent]
      exact fun z hz heq => hkeys z hz (halone z (List.mem_cons_of_mem x hz) heq)
    · have hne : x.2.place ≠ y.2.place :=
        fun heq => hkeys x hx (halone y List.mem_cons_self heq.symm).symm
      apply ih hrest hfiles hx fun z hz => halone z (List.mem_cons_of_mem y hz)
      obtain ⟨sent, hcontent, hsize, hbytes⟩ := hholds
      exact ⟨sent, (hchanges.content? hne).trans hcontent, hsize, hbytes⟩

/-- What has been written is not held back any more. -/
theorem held_of_mem_flushAll {x : (String × Part) × OpenFile}
    (h : x ∈ ((flushAll ofs).run fs).1) : x.2.held = .empty := by
  induction ofs generalizing fs with
  | nil => cases h
  | cons y ofs ih =>
    rw [flushAll, List.mapM_cons] at h
    rcases List.mem_cons.mp h with rfl | h
    · rfl
    · exact ih h

/-- To write again changes nothing. -/
theorem flushed_of_held (h : ∀ x ∈ ofs, x.2.held = .empty) : flushed ofs fs = fs := by
  induction ofs generalizing fs with
  | nil => rfl
  | cons x ofs ih =>
    have hflush : (x.2.flush.run fs).2 = fs := by
      show ((x.2.send x.2.held).run fs).2 = fs
      rw [h x List.mem_cons_self]
      rfl
    rw [flushed_cons, hflush]
    exact ih fun y hy => h y (List.mem_cons_of_mem x hy)

end LineFiles

/-- Files that have been closed are settled. -/
theorem Written.settled_close (w : Written) :
    (Written.sink.close w).2.settled = (Written.sink.close w).2.files :=
  LineFiles.flushed_of_held fun _ hx => LineFiles.held_of_mem_flushAll hx

end IntentGrammar
