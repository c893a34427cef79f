import IntentGrammar.Delivery
import IntentGrammar.Files.Basic
import IntentGrammar.Record.Utterance

/-!
# Files of utterances

The utterances of an intent and a part go to a file of their own, one JSON text a line.  A file and
the directory around it are made when the first batch for it comes.  Bytes are held back until
there are too many of them, or until the files are closed; each open file goes on where it stopped
itself, whatever else has been written to the same place.
-/

namespace IntentGrammar

/-! ### Open files -/

/-- A file that is being written: its place, the offset at which it goes on, and the bytes that are
held back. -/
structure OpenFile where
  place : Place
  offset : Nat := 0
  held : ByteArray := .empty

namespace OpenFile

/-- The largest number of bytes that are held back. -/
def capacity : Nat := 8192

/-- Write bytes to the file at once. -/
def send (f : OpenFile) (bytes : ByteArray) : StateM Files OpenFile := do
  if bytes.isEmpty then return f
  modify fun fs => fs.writeAt f.place f.offset bytes
  return { f with offset := f.offset + bytes.size }

/-- Write what is held back. -/
def flush (f : OpenFile) : StateM Files OpenFile := do
  let g ← f.send f.held
  return { g with held := .empty }

/-- Take up bytes.  If they do not fit, what is held back is written first; so many as would fill
the room alone are not held back. -/
def write (f : OpenFile) (bytes : ByteArray) : StateM Files OpenFile := do
  let f ← if capacity < f.held.size + bytes.size then f.flush else pure f
  if capacity ≤ bytes.size then f.send bytes
  else return { f with held := f.held ++ bytes }

/-- Take up an utterance as a line. -/
def writeLine (f : OpenFile) (u : Utterance) : StateM Files OpenFile := do
  let f ← f.write (Utterance.toJson u).text.toUTF8
  f.write "\n".toUTF8

/-- Take up utterances in order. -/
def writeLines (f : OpenFile) (us : List Utterance) : StateM Files OpenFile :=
  us.foldlM writeLine f

end OpenFile

/-! ### The files of all intents -/

/-- A file or directory that could not be made. -/
structure CreationFault where
  path : String
  fault : FileFault
  deriving DecidableEq, Repr

/-- The wording of a creation fault. -/
def CreationFault.message (e : CreationFault) : String :=
  s!"Failed to create {e.path}: {e.fault.message}"

/-- The files of utterances in a directory: those that are open, ordered by intent and part, and the
number of lines. -/
structure LineFiles where
  directory : String
  openFiles : List ((String × Part) × OpenFile) := []
  lines : Nat := 0

namespace LineFiles

/-- The name of the file for an intent and a part. -/
def fileName (intent : String) : Part → String
  | .training => intent ++ ".ndjson"
  | .testing => intent ++ ".test.ndjson"

/-- The path of the file for an intent and a part. -/
def path (w : LineFiles) (intent : String) (part : Part) : String :=
  Path.join w.directory (fileName intent part)

/-- The paths of the open files. -/
def paths (w : LineFiles) : List String :=
  w.openFiles.map fun ((intent, part), _) => w.path intent part

/-- The order of the open files: by intent, training before testing. -/
def precedes (a b : String × Part) : Bool :=
  a.1 < b.1 || (a.1 = b.1 && a.2 = .training && b.2 = .testing)

/-- Put an open file in its place. -/
def insert (key : String × Part) (f : OpenFile) :
    List ((String × Part) × OpenFile) → List ((String × Part) × OpenFile)
  | [] => [(key, f)]
  | (other, g) :: rest =>
    if key = other then (key, f) :: rest
    else if precedes key other then (key, f) :: (other, g) :: rest
    else (other, g) :: insert key f rest

/-- The computations that make files and directories. -/
abbrev Creating := ExceptT CreationFault (StateM Files)

/-- Tell at which path an operation failed. -/
def creating {α : Type} (path : String) (act : Filing α) : Creating α :=
  ExceptT.adapt (⟨path, ·⟩) act

/-- The open file for an intent and a part, which is made if need be. -/
def fileFor (w : LineFiles) (intent : String) (part : Part) : Creating OpenFile := do
  match w.openFiles.lookup (intent, part) with
  | some f => return f
  | none =>
    creating w.directory (Files.makeDirectories w.directory)
    let place ← creating (w.path intent part) (Files.create (w.path intent part))
    return { place }

/-- Take up a batch. -/
def accept (w : LineFiles) (b : Batch) : Creating LineFiles := do
  let f ← w.fileFor b.intent b.part
  let f ← f.writeLines b.utterances
  return { w with
    openFiles := insert (b.intent, b.part) f w.openFiles
    lines := w.lines + b.utterances.length }

/-- Write what is held back for every file, in their order. -/
def flush (w : LineFiles) : StateM Files LineFiles := do
  let openFiles ← w.openFiles.mapM fun (key, f) => do return (key, ← f.flush)
  return { w with openFiles }

end LineFiles

/-- Files of utterances among the files they belong to. -/
structure Written where
  output : LineFiles
  files : Files

namespace Written

/-- The sink that writes files of utterances. -/
def sink : Sink Written where
  accept b w :=
    match (w.output.accept b).run.run w.files with
    | (.ok output, files) => (.accepted, ⟨output, files⟩)
    | (.error e, files) => (.refused e.message, ⟨w.output, files⟩)
  close w :=
    let (output, files) := w.output.flush.run w.files
    (none, ⟨output, files⟩)

/-- The files after everything that is held back has been written. -/
def settled (w : Written) : Files := (w.output.flush.run w.files).2

end Written

end IntentGrammar
