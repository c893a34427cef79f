import IntentGrammar.Command.Basic

/-!
# The command that starts a project

A new project is a directory with settings and a grammar, both examples.  A directory that has
settings already is left alone.
-/

namespace IntentGrammar

namespace Project

/-- The lines of the settings of a new project. -/
def exampleSettings : List String :=
  ["# Phrasal configuration",
   "generation:",
   "  # Intents with at most this many distinct utterances are enumerated",
   "  exhaustive_ceiling: 10000",
   "  optional_probability: 0.5",
   "  test_fraction: 0.2",
   "  seed: 42",
   "",
   "runtime:",
   "  workers: 4"]

/-- The lines of the grammar of a new project. -/
def exampleGrammar : List String :=
  ["// Example grammar",
   "%[greet]",
   "    ~[hi] ?[there]",
   "    ~[hi] @[name]",
   "",
   "%[book_flight]('training': '20', 'testing': '5')",
   "    ~[please?] book a flight to @[city]",
   "    *[30%] fly me to @[city] ?[tomorrow]",
   "    i need to get to @[city]",
   "",
   "~[hi]",
   "    hi",
   "    hello",
   "    hey",
   "",
   "~[please]",
   "    please",
   "    could you",
   "",
   "@[name]",
   "    ada",
   "    grace",
   "",
   "@[city]",
   "    paris",
   "    lisbon",
   "    ~[new_york]",
   "",
   "~[new_york]",
   "    new york",
   "    nyc",
   "    the big apple"]

/-- A text with a line feed behind each line. -/
def textOfLines (lines : List String) : String := String.join (lines.map (· ++ "\n"))

end Project

namespace Command

/-- Start a project in a directory, with a grammar that has the name of the directory unless
another is given. -/
def startProject (path : String) (name : Option String) : Command Unit := do
  if !(← files).has path then filing .file (Files.makeDirectories path)
  let place ← require .file ((← files).find path)
  let some name := name.or place.getLast? | throw .noName
  let settingsPath := Path.join path Project.fileName
  if (← files).has settingsPath then throw (.occupied path)
  tell s!"Creating new Phrasal project: {name}"
  filing .file (Files.save settingsPath (Project.textOfLines Project.exampleSettings))
  let grammarPath := Path.join path s!"{name}.{Grammar.extension}"
  filing .file (Files.save grammarPath (Project.textOfLines Project.exampleGrammar))
  tellAll [s!"✓ Created {Project.fileName}", s!"✓ Created {grammarPath}", "", "Next steps:",
    s!"  phrasal validate {grammarPath}", s!"  phrasal generate {grammarPath}"]

end Command

end IntentGrammar
