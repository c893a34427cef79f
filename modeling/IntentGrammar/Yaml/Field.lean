import IntentGrammar.Decimal.Reading
import IntentGrammar.Grammar.Arguments
import IntentGrammar.Json.Reading
import IntentGrammar.Yaml.Document

/-!
# Values and fields

A scalar is read as what a field asks for: a number, a text, or a value that may be left out.  The
fields of a record are the entries of a mapping.  Fields that mean nothing are ignored, but a field
that means something may be given only once.
-/

namespace IntentGrammar.Yaml

/-! ### Texts of scalars -/

/-- A word for a value that is left out. -/
def isNullWord (text : String) : Bool :=
  text = "~" || text = "null" || text = "Null" || text = "NULL"

/-- The value of digits in a base up to sixteen. -/
def digitsIn? (base : Nat) (digits : List Char) : Option Nat := do
  guard !digits.isEmpty
  let values ← digits.mapM Json.hexDigit?
  guard (values.all (· < base))
  return values.foldl (fun n d => base * n + d) 0

/-- A number of at most 64 bits: decimal without leading zeros, hexadecimal behind `0x`, octal
behind `0o` or binary behind `0b`, each with an optional plus sign. -/
def countOf? (text : List Char) : Option Nat := do
  let digits := match text with
    | '+' :: cs => cs
    | cs => cs
  let n ← match digits with
    | '0' :: 'x' :: cs => digitsIn? 16 cs
    | '0' :: 'o' :: cs => digitsIn? 8 cs
    | '0' :: 'b' :: cs => digitsIn? 2 cs
    | '0' :: _ :: _ => none
    | cs => digitsIn? 10 cs
  guard (n ≤ maxCount)
  return n

/-- A number in binary64; only the words `.inf` and `.nan` stand for numbers that are not finite. -/
def floatOf? (text : List Char) : Option Float :=
  let (plus, digits) := match text with
    | '+' :: cs => (true, cs)
    | cs => (false, cs)
  let word := String.ofList digits
  if word = ".inf" ∨ word = ".Inf" ∨ word = ".INF" then some (1.0 / 0.0)
  else if !plus && (word = "-.inf" || word = "-.Inf" || word = "-.INF") then some (-1.0 / 0.0)
  else if !plus && (word = ".nan" || word = ".NaN" || word = ".NAN") then some (0.0 / 0.0)
  else if plus && (digits.head? = some '+' || digits.head? = some '-') then none
  else (Decimal.read? digits).filter Float.isFinite

/-- A tag of the standard kinds of values. -/
def standardTag (kind : String) : Octets := octets ("tag:yaml.org,2002:" ++ kind).toList

namespace Node

/-! ### Values -/

/-- The text of a scalar that may stand for a number of some kind: a plain one, or a literal block
with the tag of the kind. -/
def numeral? (kind : String) : Node → Option (List Char)
  | scalar _ _ .plain text => some text.toList
  | scalar _ tag .literal text => if tag = some (standardTag kind) then some text.toList else none
  | _ => none

/-- A number of at most 64 bits. -/
def count? (n : Node) : Option Nat := do countOf? (← n.numeral? "int")

/-- A number in binary64. -/
def float? (n : Node) : Option Float := do floatOf? (← n.numeral? "float")

/-- A text: any scalar is one. -/
def text? : Node → Option String
  | scalar _ _ _ text => some text
  | _ => none

/-- A value that may be left out.  A plain scalar leaves it out if it is empty or a word for that;
with a tag it does so only if the tag asks for such a word. -/
def optional? {α : Type} (read? : Node → Option α) (n : Node) : Option (Option α) :=
  match n with
  | scalar _ none .plain text =>
    if text.isEmpty || isNullWord text then some none else (read? n).map some
  | scalar _ (some tag) .plain text =>
    if tag ≠ standardTag "null" then (read? n).map some
    else if isNullWord text then some none
    else none
  | _ => (read? n).map some

/-! ### Records -/

/-- A document and the entries of one of its mappings, with the texts of the keys. -/
structure Fields where
  root : Node
  entries : List (String × Node)

/-- The fields of a record.  An empty scalar counts as a record without fields. -/
def fields? (root : Node) : Node → Option Fields
  | mapping _ entries => do
    let entries ← entries.mapM fun (key, value) => do
      return (← (← root.resolve? key).text?, value)
    return ⟨root, entries⟩
  | scalar _ _ .plain "" => some ⟨root, []⟩
  | _ => none

/-- The value of a field, or its default; none if it cannot be read or is given twice. -/
def Fields.get? {α : Type} (f : Fields) (name : String) (default : α) (read? : Node → Option α) :
    Option α :=
  match f.entries.filter (·.1 = name) with
  | [] => some default
  | [(_, value)] => do read? (← f.root.resolve? value)
  | _ => none

end Node

end IntentGrammar.Yaml
