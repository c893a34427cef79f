import IntentGrammar.Command.Generate
import IntentGrammar.Command.Start
import IntentGrammar.Command.Validate

/-!
# The command line

A command line names a command, with its arguments and options in any order; the options that hold
for every command stand in front of it.  An option is a word behind two hyphens or a letter behind
one.  Its value is the next word, or stands behind an equals sign, or directly behind the letter.
-/

namespace IntentGrammar

/-! ### Words -/

/-- An option that a command line may give, once. -/
structure OptionForm where
  name : String
  letter : Option Char := none
  takesValue : Bool := true
  deriving DecidableEq

/-- Why a command line is refused. -/
inductive UsageFault where
  | noCommand
  | unknownCommand (word : String)
  | unknownOption (word : String)
  | noValue (option : String)
  | needlessValue (option : String)
  | repeatedOption (option : String)
  | badValue (option value : String)
  | noArgument (what : String)
  | extraArgument (word : String)
  deriving DecidableEq

/-- The wording of a usage fault. -/
def UsageFault.message : UsageFault → String
  | noCommand => "a command is required"
  | unknownCommand word => s!"unrecognized command '{word}'"
  | unknownOption word => s!"unexpected option '{word}'"
  | noValue option => s!"option '--{option}' needs a value"
  | needlessValue option => s!"option '--{option}' takes no value"
  | repeatedOption option => s!"option '--{option}' cannot be given twice"
  | badValue option value => s!"invalid value '{value}' for option '--{option}'"
  | noArgument what => s!"the argument <{what}> is required"
  | extraArgument word => s!"unexpected argument '{word}'"

/-- The options on a command line with their values, and its arguments. -/
structure Words where
  options : List (String × String) := []
  arguments : List String := []

namespace Words

/-- The value of an option, if it is given. -/
def value? (ws : Words) (name : String) : Option String := ws.options.lookup name

/-- An option is given. -/
def has (ws : Words) (name : String) : Bool := (ws.value? name).isSome

/-- Add an option. -/
def addOption (ws : Words) (form : OptionForm) (value : String) : Except UsageFault Words :=
  if ws.has form.name then .error (.repeatedOption form.name)
  else .ok { ws with options := (form.name, value) :: ws.options }

/-- Add an argument. -/
def addArgument (ws : Words) (word : String) : Words :=
  { ws with arguments := ws.arguments ++ [word] }

end Words

/-- Find an option among those allowed. -/
def findForm (forms : List OptionForm) (word : String) (isNamed : OptionForm → Bool) :
    Except UsageFault OptionForm :=
  match forms.find? isNamed with
  | some form => .ok form
  | none => .error (.unknownOption word)

/-- The option that a word stands for, with a value if the word holds one; none for an argument. -/
def readOption (forms : List OptionForm) (word : String) :
    Except UsageFault (Option (OptionForm × Option String)) :=
  match word.toList with
  | '-' :: '-' :: cs => do
    let name := String.ofList (cs.takeWhile (· ≠ '='))
    let form ← findForm forms word (·.name = name)
    match cs.dropWhile (· ≠ '=') with
    | [] => return some (form, none)
    | _ :: value => return some (form, some (String.ofList value))
  | '-' :: c :: cs => do
    let form ← findForm forms word (·.letter = some c)
    match cs with
    | [] => return some (form, none)
    | '=' :: value => return some (form, some (String.ofList value))
    | value => return some (form, some (String.ofList value))
  | _ => return none

/-- Read words up to the end or, if asked, up to the first argument; what is left is given back. -/
def readWords (forms : List OptionForm) (upToArgument : Bool) (ws : Words) :
    List String → Except UsageFault (Words × List String)
  | [] => .ok (ws, [])
  | word :: rest => do
    match ← readOption forms word with
    | none =>
      if upToArgument then return (ws, word :: rest)
      else readWords forms upToArgument (ws.addArgument word) rest
    | some (form, value) =>
      if form.takesValue then
        match value, rest with
        | some value, rest => readWords forms upToArgument (← ws.addOption form value) rest
        | none, value :: rest => readWords forms upToArgument (← ws.addOption form value) rest
        | none, [] => throw (.noValue form.name)
      else if value.isSome then throw (.needlessValue form.name)
      else readWords forms upToArgument (← ws.addOption form "") rest

/-! ### Commands -/

/-- What a command line asks for. -/
inductive Action where
  | help
  | generate (path : String) (options : GenerateOptions)
  | validate (path : String) (settingsPath : Option String)
  | start (path : String) (name : Option String)

namespace Action

/-- The option that asks for help. -/
def helpForm : OptionForm := ⟨"help", some 'h', false⟩

/-- The options for every command. -/
def generalForms : List OptionForm :=
  [helpForm, ⟨"config", some 'c', true⟩, ⟨"verbose", some 'v', false⟩]

/-- The options of the command that generates. -/
def generateForms : List OptionForm :=
  [helpForm, ⟨"out", some 'o', true⟩, ⟨"samples", some 's', true⟩, ⟨"test-fraction", none, true⟩,
    ⟨"seed", none, true⟩, ⟨"workers", some 'w', true⟩, ⟨"timeout-secs", none, true⟩]

/-- The options of the command that starts a project. -/
def startForms : List OptionForm := [helpForm, ⟨"name", some 'n', true⟩]

/-- How the commands are used. -/
def usage : List String :=
  ["Usage: phrasal [-c FILE] [-v] COMMAND",
   "",
   "Commands:",
   "  generate GRAMMAR   Generate utterances from a grammar",
   "    -o, --out DIR          Output directory",
   "    -s, --samples N        Utterances per intent",
   "        --test-fraction F  Fraction of each intent reserved for testing",
   "        --seed N           Seed for reproducible sampling, or PHRASAL_SEED",
   "    -w, --workers N        Intents generated concurrently",
   "        --timeout-secs N   Stop generating after this many seconds",
   "  validate GRAMMAR   Parse and validate a grammar without generating",
   "  init [DIR]         Create an example grammar and configuration",
   "    -n, --name NAME        Grammar name"]

/-- The value of an option that has to be of some kind. -/
def valueOf {α : Type} (ws : Words) (name : String) (read? : String → Option α) :
    Except UsageFault (Option α) :=
  match ws.value? name with
  | none => .ok none
  | some text =>
    match read? text with
    | some a => .ok (some a)
    | none => .error (.badValue name text)

/-- Read a count without white space around it. -/
def count? (text : String) : Option Nat :=
  if text.toList.any Text.isBlank then none else readCount? text

/-- The only argument. -/
def onlyArgument (ws : Words) (otherwise : Except UsageFault String) :
    Except UsageFault String :=
  match ws.arguments with
  | [] => otherwise
  | [word] => .ok word
  | _ :: word :: _ => .error (.extraArgument word)

/-- Read the words behind a command.  `usualSeed` is the text of a seed that holds unless one is
given. -/
def readCommand (settingsPath usualSeed : Option String) (command : String)
    (words : List String) : Except UsageFault Action := do
  let forms ←
    if command = "generate" then .ok generateForms
    else if command = "validate" then .ok [helpForm]
    else if command = "init" then .ok startForms
    else .error (.unknownCommand command)
  let (ws, _) ← readWords forms false {} words
  if ws.has helpForm.name then return help
  else if command = "generate" then
    let path ← onlyArgument ws (.error (.noArgument "GRAMMAR"))
    let ws := match ws.value? "seed", usualSeed with
      | none, some seed => { ws with options := ("seed", seed) :: ws.options }
      | _, _ => ws
    return generate path {
      settingsPath
      outputDir := ws.value? "out"
      samples := ← valueOf ws "samples" count?
      testFraction := ← valueOf ws "test-fraction" fun text => Decimal.read? text.toList
      seed := (← valueOf ws "seed" count?).map Nat.toUInt64
      workers := ← valueOf ws "workers" count?
      timeout := ← valueOf ws "timeout-secs" count? }
  else if command = "validate" then
    return validate (← onlyArgument ws (.error (.noArgument "GRAMMAR"))) settingsPath
  else
    return start (← onlyArgument ws (.ok ".")) (ws.value? "name")

/-- Read a command line. -/
def read (usualSeed : Option String) (words : List String) : Except UsageFault Action := do
  let (ws, rest) ← readWords generalForms true {} words
  if ws.has helpForm.name then return help
  else
    match rest with
    | [] => throw .noCommand
    | command :: words => readCommand (ws.value? "config") usualSeed command words

/-- What an action does. -/
def command (drawnSeed : UInt64) : Action → Command Unit
  | help => Command.tellAll usage
  | generate path options => Command.generate path options drawnSeed
  | validate path settingsPath => Command.validate path settingsPath
  | start path name => Command.startProject path name

/-- The paths that an action looks at before it knows where its output goes. -/
def sources : Action → List String
  | help => []
  | generate path options =>
    path :: Path.join (Command.directoryOf path) Project.fileName :: options.settingsPath.toList
  | validate path settingsPath =>
    path :: Path.join (Command.directoryOf path) Project.fileName :: settingsPath.toList
  | start path _ => [path, Path.join path Project.fileName]

/-- The directory into which an action writes, with the files that it has looked at. -/
def output? (fs : Files) : Action → Option String
  | generate path options =>
    match (Command.settings options.settingsPath (Command.directoryOf path)).run.run ⟨fs, []⟩ with
    | (.ok p, _) =>
      some (options.outputPath (options.override p) path (Command.directoryOf path))
    | (.error _, _) => none
  | start path _ => some path
  | _ => none

end Action

end IntentGrammar
