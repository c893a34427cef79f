/-!
# JSON values and their text

A JSON value, the compact text of it, and the text with two spaces of indentation for each level.
In a string only the quote, the backslash and the control characters below U+0020 are escaped, five
of them by a letter and the rest by four hexadecimal digits.  Members keep the order they are given
in.
-/

namespace IntentGrammar

/-- A JSON value.  A number is an integer, or a decimal `± digits * 10 ^ exponent` that was written
with a point or an exponent. -/
inductive Json where
  | null
  | bool (b : Bool)
  | integer (n : Int)
  | decimal (negative : Bool) (digits : Nat) (exponent : Int)
  | string (s : String)
  | array (items : List Json)
  | object (members : List (String × Json))
  deriving Repr

namespace Json

instance : Inhabited Json := ⟨null⟩

/-! ### Strings -/

/-- The characters that stand for `c` inside a string. -/
def escapeChar (c : Char) : List Char :=
  if c = '"' then ['\\', '"']
  else if c = '\\' then ['\\', '\\']
  else if c = '\n' then ['\\', 'n']
  else if c = '\t' then ['\\', 't']
  else if c = '\r' then ['\\', 'r']
  else if c.toNat = 8 then ['\\', 'b']
  else if c.toNat = 12 then ['\\', 'f']
  else if c.toNat < 32 then
    ['\\', 'u', '0', '0', Nat.digitChar (c.toNat / 16), Nat.digitChar (c.toNat % 16)]
  else [c]

/-- A string in quotes. -/
def quote (s : String) : List Char := '"' :: s.toList.flatMap escapeChar ++ ['"']

/-! ### Numbers -/

/-- An integer in decimal digits. -/
def integerText (n : Int) : List Char :=
  if n < 0 then '-' :: Nat.toDigits 10 n.natAbs else Nat.toDigits 10 n.natAbs

/-- A decimal with an exponent. -/
def decimalText (negative : Bool) (digits : Nat) (exponent : Int) : List Char :=
  (if negative then ['-'] else []) ++ Nat.toDigits 10 digits ++ 'e' :: integerText exponent

/-! ### Compact text -/

mutual

/-- The text of a value without white space. -/
def compact : Json → List Char
  | null => "null".toList
  | bool true => "true".toList
  | bool false => "false".toList
  | integer n => integerText n
  | decimal negative digits exponent => decimalText negative digits exponent
  | string s => quote s
  | array items => '[' :: compactItems items ++ [']']
  | object members => '\x7b' :: compactMembers members ++ ['\x7d']

/-- The items of an array, with commas between them. -/
def compactItems : List Json → List Char
  | [] => []
  | [item] => compact item
  | item :: items => compact item ++ ',' :: compactItems items

/-- The members of an object, with commas between them. -/
def compactMembers : List (String × Json) → List Char
  | [] => []
  | [(name, value)] => quote name ++ ':' :: compact value
  | (name, value) :: members => quote name ++ ':' :: compact value ++ ',' :: compactMembers members

end

/-! ### Indented text -/

/-- A new line at a level. -/
def newLine (level : Nat) : List Char := '\n' :: List.replicate (2 * level) ' '

mutual

/-- The text of a value that stands at a level, one item or member a line. -/
def indentedAt (level : Nat) : Json → List Char
  | array [] => ['[', ']']
  | array (item :: items) =>
    '[' :: indentedItems (level + 1) (item :: items) ++ newLine level ++ [']']
  | object [] => ['\x7b', '\x7d']
  | object (member :: members) =>
    '\x7b' :: indentedMembers (level + 1) (member :: members) ++ newLine level ++ ['\x7d']
  | value => compact value

/-- The items of an array at a level, with commas between them. -/
def indentedItems (level : Nat) : List Json → List Char
  | [] => []
  | [item] => newLine level ++ indentedAt level item
  | item :: items => newLine level ++ indentedAt level item ++ ',' :: indentedItems level items

/-- The members of an object at a level, with commas between them. -/
def indentedMembers (level : Nat) : List (String × Json) → List Char
  | [] => []
  | [(name, value)] => newLine level ++ quote name ++ ':' :: ' ' :: indentedAt level value
  | (name, value) :: members =>
    newLine level ++ quote name ++ ':' :: ' ' :: indentedAt level value
      ++ ',' :: indentedMembers level members

end

/-- The text of a value without white space. -/
def text (j : Json) : String := String.ofList j.compact

/-- The text of a value with indentation. -/
def indented (j : Json) : String := String.ofList (indentedAt 0 j)

/-! ### Building and looking up -/

/-- A natural number. -/
def nat (n : Nat) : Json := integer n

/-- The value, or null if there is none. -/
def ofOption {α : Type} (f : α → Json) : Option α → Json
  | some a => f a
  | none => null

/-- The array of the values of a list. -/
def ofList {α : Type} (f : α → Json) (xs : List α) : Json := array (xs.map f)

/-- The member of an object with a name; of several the last one counts. -/
def member? (j : Json) (name : String) : Option Json :=
  match j with
  | object members => members.reverse.lookup name
  | _ => none

end Json

end IntentGrammar
