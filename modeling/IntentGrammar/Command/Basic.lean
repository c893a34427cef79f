import IntentGrammar.Files.Loading
import IntentGrammar.Graph.Build
import IntentGrammar.LineFiles
import IntentGrammar.Workers

/-!
# Commands

A command acts on files, tells line by line what it does, and may fail.  What it has done and told
before it fails stays.  Commands on a grammar find the settings for it beside it, unless they are
named.
-/

namespace IntentGrammar

/-! ### Faults -/

/-- Why a command fails. -/
inductive CommandFault where
  /-- The name of the grammar has another extension. -/
  | wrongExtension (path : String)
  | grammarNotFound (path : String)
  | badSettings (e : Error)
  | badSyntax (path : String) (e : SourceError)
  | unreadable (path : String) (e : Error)
  | badGrammar (path : String) (e : Error)
  | refused (e : Error)
  | run (fault : RunFault)
  | notCreated (e : CreationFault)
  | notWritten (path : String) (fault : FileFault)
  | failedJobs (count : Nat)
  | file (fault : FileFault)
  | noName
  | occupied (directory : String)

/-- The wording of an error with that of its cause, if it has one. -/
def Error.withCause : Error → String
  | file fault => s!"{(file fault).message}: {fault.message}"
  | e => e.message

/-- The extension of the names of grammars. -/
def Grammar.extension : String := "phrasal"

namespace CommandFault

/-- What comes before the wording of an error about settings. -/
def settingsContext : String := "Failed to load configuration"

/-- The wording of a command fault. -/
def message : CommandFault → String
  | wrongExtension path => s!"Only .{Grammar.extension} files are supported, got '{path}'"
  | grammarNotFound path => s!"Grammar file '{path}' not found"
  | badSettings e => s!"{settingsContext}: {e.withCause}"
  | badSyntax path e =>
    s!"Syntax error in {path}: {e.fault.message}\n  Line: {e.line}\n  Column: {e.column}"
  | unreadable path e => s!"Failed to read {path}: {e.withCause}"
  | badGrammar path e => s!"Invalid grammar {path}: {e.withCause}"
  | refused e => e.withCause
  | run fault => fault.message
  | notCreated e => e.message
  | notWritten path fault => s!"Failed to write {path}: {fault.message}"
  | failedJobs count => s!"{count} intent(s) failed"
  | file fault => fault.message
  | noName => "Could not determine grammar name from path"
  | occupied directory => s!"Directory '{directory}' already contains a {Project.fileName}"

end CommandFault

/-! ### Acting -/

/-- What a command acts on: files, and the lines that it has told. -/
structure Desk where
  files : Files
  told : List String := []

/-- A computation on files that tells what it does. -/
abbrev Command := ExceptT CommandFault (StateM Desk)

namespace Command

/-- Tell a line. -/
def tell (line : String) : Command Unit :=
  modify fun desk => { desk with told := desk.told ++ [line] }

/-- Tell lines. -/
def tellAll (lines : List String) : Command Unit :=
  modify fun desk => { desk with told := desk.told ++ lines }

/-- The files as they are now. -/
def files : Command Files := return (← get).files

/-- Put the files into another state. -/
def setFiles (fs : Files) : Command Unit := modify fun desk => { desk with files := fs }

/-- Act on the files, and say what a fault means. -/
def filing {α : Type} (blame : FileFault → CommandFault) (act : Filing α) : Command α := do
  let (result, fs) := act.run.run (← files)
  setFiles fs
  match result with
  | .ok a => return a
  | .error fault => throw (blame fault)

/-- A result, or a fault made of the error. -/
def require {ε α : Type} (blame : ε → CommandFault) : Except ε α → Command α
  | .ok a => return a
  | .error e => throw (blame e)

/-! ### Grammars and settings -/

/-- The name of a path ends with the extension of grammars, capitals or not. -/
def namesGrammar (path : String) : Bool :=
  match Path.extension? path with
  | some ext => ext.toList.map Char.toLower = Grammar.extension.toList
  | none => false

/-- The directory of a grammar. -/
def directoryOf (path : String) : String :=
  match Path.parent? path with
  | some directory => if directory = "" then "." else directory
  | none => "."

/-- Check the path of a grammar.  The result is the directory of it. -/
def locate (path : String) : Command String := do
  if !namesGrammar path then throw (.wrongExtension path)
  if !(← files).isFile path then throw (.grammarNotFound path)
  return directoryOf path

/-- Load the settings that are named, or those in the directory of the grammar. -/
def settings (named : Option String) (directory : String) : Command Project := do
  let fs ← files
  let placed ← require .badSettings (match named with
    | some path => Project.load fs path
    | none => Project.loadOrDefault fs directory)
  return placed.project

/-- Read the grammar at a path, once its settings have been checked. -/
def graph (path : String) (s : Settings) : Command Graph := do
  s.fault?.forM fun fault => throw (.refused (.settingsInvalid fault))
  let blame : Error → CommandFault
    | .source e => .badSyntax path e
    | e => .unreadable path e
  let grammar ← require blame ((← files).grammar path)
  require (.badGrammar path) (Graph.build grammar s.exhaustiveCeiling)

end Command

end IntentGrammar
