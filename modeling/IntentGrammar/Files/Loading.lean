import IntentGrammar.Files.Basic
import IntentGrammar.Grammar.Source
import IntentGrammar.Project

/-!
# Grammars and settings in files

A grammar stands in a file of its own.  The settings of a project stand in a file with a fixed name
in the directory of the project, or in a file that is named.
-/

namespace IntentGrammar

namespace Files

/-- The text of the file at a path. -/
def text (fs : Files) (path : String) : Except Error String :=
  (fs.readText path).mapError .file

/-- Read the grammar in a file. -/
def grammar (fs : Files) (path : String) : Except Error Grammar := do
  (Grammar.read (← fs.text path)).mapError .source

end Files

/-- Settings, and the directory to which their paths relate. -/
structure PlacedProject where
  project : Project := {}
  directory : String

namespace Project

/-- The name of the file with the settings of a project. -/
def fileName : String := "phrasal.yaml"

/-- Where the settings for a path stand, and the directory of the project: a directory has a file
with the fixed name. -/
def locate (fs : Files) (path : String) : String × String :=
  if fs.isDirectory path then (Path.join path fileName, path)
  else (path, (Path.parent? path).getD ".")

/-- Load the settings in a directory or file. -/
def load (fs : Files) (path : String) : Except Error PlacedProject := do
  let (file, directory) := locate fs path
  if !fs.has file then throw (.settingsNotFound file)
  return ⟨← Project.read (← fs.text file), directory⟩

/-- Load the settings in a directory, or take the defaults if there are none. -/
def loadOrDefault (fs : Files) (directory : String) : Except Error PlacedProject :=
  if fs.has (Path.join directory fileName) then load fs directory
  else .ok ⟨{}, directory⟩

end Project

end IntentGrammar
