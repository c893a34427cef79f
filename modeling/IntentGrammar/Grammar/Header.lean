import IntentGrammar.Grammar.Label
import IntentGrammar.Text.Alphanumeric

/-!
# Headers

A header starts a definition: a sigil, a name in brackets, and optional arguments
`('training': '20', "testing": 5)`.  A quoted text holds anything but its own quote; a bare word is
made of letters, digits, `_`, `-` and `.`.  A comma may follow the last argument.
-/

namespace IntentGrammar

open Text

/-- A character of a bare word. -/
def isBare (c : Char) : Bool := isAlphanumeric c || c = '_' || c = '-' || c = '.'

/-- A quoted text whose opening quote has been read, where `opened` characters were left. -/
def readQuoted (quote : Char) (opened : Nat) (cs : List Char) :
    Except Stop (List Char × List Char) :=
  match cs.dropWhile (· != quote) with
  | [] => .error ⟨.unclosedString, opened⟩
  | _ :: rest => .ok (cs.takeWhile (· != quote), rest)

/-- The quoted text or bare word that the text starts with, if it starts with one. -/
def readValue? (cs : List Char) : Except Stop (Option (List Char × List Char)) :=
  match cs with
  | [] => .ok none
  | c :: rest =>
    if c = '\'' ∨ c = '"' then (readQuoted c cs.length rest).map some
    else if isBare c then .ok (some (cs.takeWhile isBare, cs.dropWhile isBare))
    else .ok none

/-- A named argument, with the number of characters that were left at its start. -/
structure Argument where
  left : Nat
  name : String
  value : String
  deriving DecidableEq, Repr

/-- The argument that the text starts with, and what follows it; none if no name starts there. -/
def readArgument? (cs : List Char) : Except Stop (Option (Argument × List Char)) := do
  match ← readValue? cs with
  | none => return none
  | some (name, rest) =>
    match skipIndent rest with
    | ':' :: rest =>
      match ← readValue? (skipIndent rest) with
      | some (value, rest) =>
        return some (⟨cs.length, String.ofList name, String.ofList value⟩, rest)
      | none => throw ⟨.expectedValue, (skipIndent rest).length⟩
    | rest => throw ⟨.expectedColon, rest.length⟩

/-- The arguments after a first one: each follows a comma.  A comma that no argument follows is left
in place.  At most `fuel` arguments are read. -/
def readArguments (fuel : Nat) (cs : List Char) : Except Stop (List Argument × List Char) :=
  match fuel, skipIndent cs with
  | fuel + 1, ',' :: rest => do
    match ← readArgument? (skipIndent rest) with
    | none => return ([], cs)
    | some (argument, rest) =>
      let (others, rest) ← readArguments fuel rest
      return (argument :: others, rest)
  | _, _ => return ([], cs)

/-- The first argument whose name an earlier one has. -/
def firstRepeated? (seen : List String) : List Argument → Option Argument
  | [] => none
  | a :: as => if a.name ∈ seen then some a else firstRepeated? (a.name :: seen) as

/-- What follows the closing parenthesis of an argument list, a last comma allowed. -/
def closeArguments (opened : Nat) (cs : List Char) : Except Stop (List Char) :=
  let rest := skipIndent cs
  let rest := match rest with
    | ',' :: behind => skipIndent behind
    | _ => rest
  match rest with
  | [] => .error ⟨.unclosedArguments, opened⟩
  | c :: behind =>
    if c = ')' then .ok behind else .error ⟨.expectedComma c, rest.length⟩

/-- The argument list whose opening parenthesis has been read, where `opened` characters were left,
and what follows it. -/
def readArgumentList (opened : Nat) (cs : List Char) :
    Except Stop (List (String × String) × List Char) := do
  let cs := skipIndent cs
  let (arguments, rest) ← match ← readArgument? cs with
    | none => pure ([], cs)
    | some (first, rest) => do
      let (others, rest) ← readArguments rest.length rest
      pure (first :: others, rest)
  let rest ← closeArguments opened rest
  match firstRepeated? [] arguments with
  | some repeated => throw ⟨.repeatedArgument repeated.name, repeated.left⟩
  | none => return (arguments.map fun a => (a.name, a.value), rest)

/-- Read a header line into its key and its arguments. -/
def readHeader (cs : List Char) : Except Stop (Key × List (String × String)) := do
  match cs with
  | c :: '[' :: inner =>
    let opened := inner.length + 1
    let some kind := Kind.ofSigil? c | throw ⟨.unknownSigil c, cs.length⟩
    let (body, rest) ← bracketBody opened inner
    let label ← (Label.read body).mapError fun fault => ⟨fault, opened⟩
    if label.optional then throw ⟨.optionalHeader, opened⟩
    if kind = .intent ∧ label.variation.isSome then throw ⟨.intentVariation, opened⟩
    let (arguments, rest) ← match skipIndent rest with
      | '(' :: behind => readArgumentList (behind.length + 1) behind
      | rest => pure ([], rest)
    let rest := skipIndent rest
    if !rest.isEmpty then throw ⟨.textAfterHeader, rest.length⟩
    return (⟨kind, label.name, label.variation⟩, arguments)
  | _ => throw ⟨.noHeader, cs.length⟩

end IntentGrammar
