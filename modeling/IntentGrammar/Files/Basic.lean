import IntentGrammar.Error
import IntentGrammar.Files.Path

/-!
# Files

The files and directories that a command can see, as a value.  A place is the list of the names
that lead to it from the root, which is always a directory.  Operations find their place by walking
along a path, and fail where the way ends.  Whatever stands at a place may be read and changed.
-/

namespace IntentGrammar

/-- The names that lead to a file or directory from the root. -/
abbrev Place := List String

/-- What stands at a place. -/
inductive Entry where
  | directory
  | file (content : ByteArray)

instance : DecidableEq Entry
  | .directory, .directory => isTrue rfl
  | .directory, .file _ => isFalse nofun
  | .file _, .directory => isFalse nofun
  | .file a, .file b =>
    match ByteArray.instDecidableEq a b with
    | isTrue h => isTrue (congrArg _ h)
    | isFalse h => isFalse fun e => h (Entry.file.inj e)

/-- Files and directories, and the directory at which relative paths start. -/
structure Files where
  entries : List (Place × Entry) := []
  workDir : Place := []
  deriving DecidableEq

/-- A computation on files that may fail.  What it has done before stays done. -/
abbrev Filing := ExceptT FileFault (StateM Files)

namespace Files

/-! ### Looking -/

/-- What stands at a place. -/
def entry? (fs : Files) (place : Place) : Option Entry :=
  if place = [] then some .directory else fs.entries.lookup place

/-- Change what stands at a place. -/
def put (fs : Files) (place : Place) (entry : Entry) : Files :=
  { fs with entries := (place, entry) :: fs.entries.filter (·.1 ≠ place) }

/-- The longest name in bytes. -/
def maxName : Nat := 255

/-- Paths are shorter than this number of bytes. -/
def maxPath : Nat := 4096

/-- Go down by a name. -/
def child (fs : Files) (place : Place) (name : String) : Except FileFault Place :=
  if maxName < name.utf8ByteSize then .error .nameTooLong
  else if (fs.entry? (place ++ [name])).isNone then .error .notFound
  else .ok (place ++ [name])

/-- Walk from a place along steps, each of which starts at a directory. -/
def walk (fs : Files) : Place → List Path.Step → Except FileFault Place
  | place, [] => .ok place
  | place, step :: steps =>
    if fs.entry? place = some .directory then
      match step with
      | .stay => walk fs place steps
      | .up => walk fs place.dropLast steps
      | .down name => do walk fs (← fs.child place name) steps
    else .error .notDirectory

/-- The place at which a path starts, if the path can be used at all. -/
def start (fs : Files) (path : String) : Except FileFault Place :=
  if path.toList.any (·.toNat = 0) then .error .nulInPath
  else if path = "" then .error .notFound
  else if maxPath ≤ path.utf8ByteSize then .error .nameTooLong
  else .ok (if Path.isAbsolute path then [] else fs.workDir)

/-- The place that a path leads to. -/
def find (fs : Files) (path : String) : Except FileFault Place := do
  fs.walk (← fs.start path) (Path.steps path)

/-- What a path leads to. -/
def entryAt? (fs : Files) (path : String) : Option Entry :=
  match fs.find path with
  | .ok place => fs.entry? place
  | .error _ => none

/-- There is something at a path. -/
def has (fs : Files) (path : String) : Bool := (fs.entryAt? path).isSome

/-- There is a directory at a path. -/
def isDirectory (fs : Files) (path : String) : Bool := fs.entryAt? path = some .directory

/-- There is a file at a path. -/
def isFile (fs : Files) (path : String) : Bool :=
  match fs.entryAt? path with
  | some (.file _) => true
  | _ => false

/-- The bytes of the file at a place. -/
def content? (fs : Files) (place : Place) : Option ByteArray :=
  match fs.entry? place with
  | some (.file content) => some content
  | _ => none

/-- The text of the file at a path. -/
def readText (fs : Files) (path : String) : Except FileFault String := do
  match fs.content? (← fs.find path) with
  | none => .error .isDirectory
  | some content =>
    match String.fromUTF8? content with
    | none => .error .invalidText
    | some text => .ok text

/-! ### Changing -/

/-- Walk to the directory in which the last name of a path stands. -/
def approach (fs : Files) (path : String) : Except FileFault (Place × Path.Step) := do
  let (steps, last) := Path.approach path
  let place ← fs.walk (← fs.start path) steps
  match last, fs.entry? place with
  | .down name, some .directory =>
    if maxName < name.utf8ByteSize then .error .nameTooLong else .ok (place, .down name)
  | last, some .directory => .ok (place, last)
  | _, _ => .error .notDirectory

/-- Make a directory where nothing stands. -/
def makeDirectory (path : String) : Filing Unit := do
  let fs ← get
  match ← (fs.approach path : Except FileFault _) with
  | (place, .down name) =>
    if (fs.entry? (place ++ [name])).isSome then throw .alreadyExists
    set (fs.put (place ++ [name]) .directory)
  | _ => throw .alreadyExists

/-- Make a directory unless there is one. -/
def ensureDirectory (path : String) : Filing Unit :=
  tryCatch (makeDirectory path) fun fault => do
    if fault = .alreadyExists && (← get).isDirectory path then return
    throw fault

/-- Make a directory, after those above it that are missing.  The paths of those above follow it in
the list, and the empty path needs nothing. -/
def makeOutward : List String → Filing Unit
  | [] => return
  | path :: above =>
    if path = "" then return
    else
      tryCatch (ensureDirectory path) fun fault => do
        if fault ≠ .notFound then throw fault
        makeOutward above
        ensureDirectory path

/-- Make a directory with all that lead to it, unless there is one. -/
def makeDirectories (path : String) : Filing Unit := makeOutward (path :: Path.parents path)

/-- Empty the file at a path, or make one.  The result is its place. -/
def create (path : String) : Filing Place := do
  let fs ← get
  match ← (fs.approach path : Except FileFault _) with
  | (place, .down name) =>
    let place := place ++ [name]
    if path.toList.getLast? = some '/' || fs.entry? place = some .directory then
      throw .isDirectory
    set (fs.put place (.file .empty))
    return place
  | _ => throw .isDirectory

/-- Put bytes into a content at an offset, over what stands there; zeros fill a gap. -/
def overwrite (content : ByteArray) (offset : Nat) (bytes : ByteArray) : ByteArray :=
  content.extract 0 offset ++ ⟨Array.replicate (offset - content.size) 0⟩ ++ bytes
    ++ content.extract (offset + bytes.size) content.size

/-- Write bytes at an offset of the file at a place. -/
def writeAt (fs : Files) (place : Place) (offset : Nat) (bytes : ByteArray) : Files :=
  fs.put place (.file (overwrite ((fs.content? place).getD .empty) offset bytes))

/-- Write a text as the whole content of the file at a path. -/
def save (path text : String) : Filing Unit := do
  let place ← create path
  modify fun fs => fs.writeAt place 0 text.toUTF8

end Files

end IntentGrammar
