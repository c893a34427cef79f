import IntentGrammar.Checked
import IntentGrammar.Grammar.Fault
import IntentGrammar.Settings

/-!
# Errors

Why a grammar is refused, why a run stops, and why settings or files cannot be used.  An error of
the first kind is *structural*: it is found before anything is generated.  Where the program stops,
that is passed on like an error, though nothing handles it.
-/

namespace IntentGrammar

/-- Why an operation on a file fails. -/
inductive FileFault where
  | notFound
  | alreadyExists
  | notDirectory
  | isDirectory
  | nameTooLong
  | nulInPath
  | invalidText
  deriving DecidableEq, Repr

/-- The wording of a file fault. -/
def FileFault.message : FileFault → String
  | notFound => "No such file or directory (os error 2)"
  | alreadyExists => "File exists (os error 17)"
  | notDirectory => "Not a directory (os error 20)"
  | isDirectory => "Is a directory (os error 21)"
  | nameTooLong => "File name too long (os error 36)"
  | nulInPath => "file name contained an unexpected NUL byte"
  | invalidText => "stream did not contain valid UTF-8"

/-- Why an operation on grammars, utterances or settings fails. -/
inductive Error where
  | source (e : SourceError)
  | weightOverflow (definition : Key) (total : Float)
  | emptyDefinition (definition : Key)
  | cyclicDefinition (cycle : List Key)
  | undefinedReference (within missing : Key)
  | intentReference (within intent : Key)
  | nestedSlot (slot nested : Key)
  | unknownIntent (name : String)
  | cancelled (produced : Nat)
  | sink (reason : String)
  | settingsNotFound (path : String)
  | settingsUnreadable
  | settingsInvalid (fault : BadSetting)
  | file (fault : FileFault)
  /-- The program stops. -/
  | panic (p : Panic)

namespace Error

/-- The wording of an error.  How an unreadable settings file is worded is left open. -/
def message : Error → String
  | source e => e.message
  | weightOverflow definition total =>
    s!"weights of {definition.text} add up to {Decimal.text total}%, more than 100%"
  | emptyDefinition definition => s!"{definition.text} has no sentences"
  | cyclicDefinition cycle => "cyclic definition: " ++ " -> ".intercalate (cycle.map Key.text)
  | undefinedReference within missing => s!"{within.text} references undefined {missing.text}"
  | intentReference within intent =>
    s!"{within.text} references intent {intent.text}; intents cannot be referenced"
  | nestedSlot slot nested => s!"slot {slot.text} cannot contain slot {nested.text}"
  | unknownIntent name => s!"unknown intent '{name}'"
  | cancelled produced => s!"generation cancelled after {produced} utterances"
  | sink reason => reason
  | settingsNotFound path => s!"configuration file not found: {path}"
  | settingsUnreadable => "failed to parse configuration"
  | settingsInvalid fault => s!"invalid configuration: {fault.message}"
  | file fault => s!"IO error: {fault.message}"
  | panic p => p.message

/-- The error lies in the grammar, and is found before anything is generated. -/
def isStructural : Error → Bool
  | source _ | weightOverflow _ _ | emptyDefinition _ | cyclicDefinition _
  | undefinedReference _ _ | intentReference _ _ | nestedSlot _ _ => true
  | _ => false

end Error

end IntentGrammar
