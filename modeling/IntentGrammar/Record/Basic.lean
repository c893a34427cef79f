import IntentGrammar.Json.Basic

/-!
# Records in JSON

A record is written as an object with its fields in a fixed order.  It is read from an object,
whose other members are ignored and in which a missing field counts as null, or from an array that
lists exactly the fields in order.  Of several kinds of record a tag tells which one it is: a
member of the object, or the first item of the array.
-/

namespace IntentGrammar.Json

/-- The values of the fields of a record. -/
def fields? (names : List String) : Json → Option (List Json)
  | object members => some (names.map fun name => ((object members).member? name).getD null)
  | array items => if items.length = names.length then some items else none
  | _ => none

/-- The tag of a record and the record without it. -/
def tagged? (tag : String) : Json → Option (String × Json)
  | object members =>
    match (object members).member? tag with
    | some (string kind) => some (kind, object members)
    | _ => none
  | array (string kind :: items) => some (kind, array items)
  | _ => none

/-- The string, if the value is one. -/
def string? : Json → Option String
  | string s => some s
  | _ => none

/-- The truth value, if the value is one. -/
def bool? : Json → Option Bool
  | bool b => some b
  | _ => none

/-- A string that may be absent, in which case the value is null. -/
def optionalString? : Json → Option (Option String)
  | null => some none
  | string s => some (some s)
  | _ => none

/-- A natural number of at most 64 bits. -/
def count? : Json → Option Nat
  | integer n => if 0 ≤ n ∧ n < 0x10000000000000000 then some n.toNat else none
  | _ => none

/-- The items of an array, read one by one. -/
def listOf? {α : Type} (read? : Json → Option α) : Json → Option (List α)
  | array items => items.mapM read?
  | _ => none

end IntentGrammar.Json
