import IntentGrammar.Command.Line

/-!
# The program

The part of the program that touches the world: it copies the files that a command may look at into
a value, runs the command on that value, and writes back what has changed.  Everything that is
decided is decided elsewhere.
-/

namespace IntentGrammar

namespace Disk

/-- The path of a place, from the root. -/
def pathOf (place : Place) : String := "/" ++ String.intercalate "/" place

/-- Copy what stands at a place, unless it has been copied. -/
def copyEntry (fs : Files) (place : Place) : IO Files := do
  if (fs.entry? place).isSome then return fs
  let path := (← IO.currentDir) / pathOf place
  if !(← path.pathExists) then return fs
  if ← path.isDir then return fs.put place .directory
  return fs.put place (.file (← IO.FS.readBinFile path))

/-- Copy what stands on the way along a path. -/
def copyWay (fs : Files) (path : String) : IO Files := do
  let start := if Path.isAbsolute path then [] else fs.workDir
  let mut fs := fs
  let mut place := start
  for step in Path.steps path do
    place := match step with
      | .stay => place
      | .up => place.dropLast
      | .down name => place ++ [name]
    fs ← copyEntry fs place
  return fs

/-- Copy what stands in the directory at a path. -/
def copyContent (fs : Files) (path : String) : IO Files := do
  let mut fs ← copyWay fs path
  if let .ok place := fs.find path then
    if fs.entry? place = some .directory then
      for child in ← ((← IO.currentDir) / pathOf place).readDir do
        fs ← copyEntry fs (place ++ [child.fileName])
  return fs

/-- The working directory and those above it. -/
def workingFiles : IO Files := do
  let workDir := (Path.steps (← IO.currentDir).toString).filterMap fun
    | .down name => some name
    | _ => none
  let places := (List.range workDir.length).map fun n => workDir.take (n + 1)
  return { entries := places.map fun place => (place, .directory), workDir }

/-- Write what differs from what stood there before. -/
def writeBack (before after : Files) : IO Unit := do
  for (place, entry) in after.entries.reverse do
    if before.entry? place ≠ some entry then
      let path := (← IO.currentDir) / pathOf place
      match entry with
      | .directory => IO.FS.createDirAll path
      | .file content => IO.FS.writeBinFile path content

end Disk

/-- A seed that nobody has chosen. -/
def drawSeed : IO UInt64 := do
  let bytes ← IO.getRandomBytes 8
  return bytes.foldl (fun n b => 256 * n + b.toUInt64) 0

/-- Do what a command line asks for.  The result is the exit code. -/
def runAction (action : Action) : IO UInt32 := do
  let mut files ← Disk.workingFiles
  for path in action.sources do
    files ← Disk.copyWay files path
  if let some output := action.output? files then
    files ← Disk.copyContent files output
  let (result, desk) := (action.command (← drawSeed)).run.run { files }
  Disk.writeBack files desk.files
  desk.told.forM fun line => IO.println line
  match result with
  | .ok () => return 0
  | .error fault =>
    IO.eprintln s!"Error: {fault.message}"
    return 1

end IntentGrammar

open IntentGrammar in
def main (words : List String) : IO UInt32 := do
  match Action.read (← IO.getEnv "PHRASAL_SEED") words with
  | .ok action => runAction action
  | .error fault =>
    IO.eprintln s!"error: {fault.message}"
    return 2
