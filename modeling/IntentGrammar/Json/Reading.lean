import IntentGrammar.Decimal.Reading
import IntentGrammar.Json.Basic

/-!
# Reading JSON

A reader for the whole of JSON.  Every value starts with a character that is not part of the one
before it, so a reader that is given as many steps as the text has characters never runs out of
them.
-/

namespace IntentGrammar.Json

/-- White space between the parts of a value. -/
def isSpace (c : Char) : Bool := c = ' ' || c = '\n' || c = '\r' || c = '\t'

/-- The text without the white space it starts with. -/
def skipSpace (cs : List Char) : List Char := cs.dropWhile isSpace

/-- The value of a hexadecimal digit. -/
def hexDigit? (c : Char) : Option Nat :=
  if c.isDigit then some (c.toNat - '0'.toNat)
  else if 'a' ≤ c ∧ c ≤ 'f' then some (c.toNat - 'a'.toNat + 10)
  else if 'A' ≤ c ∧ c ≤ 'F' then some (c.toNat - 'A'.toNat + 10)
  else none

/-- Four hexadecimal digits and what follows them. -/
def readHex4? : List Char → Option (Nat × List Char)
  | a :: b :: c :: d :: rest => do
    let a ← hexDigit? a
    let b ← hexDigit? b
    let c ← hexDigit? c
    let d ← hexDigit? d
    return (4096 * a + 256 * b + 16 * c + d, rest)
  | _ => none

/-- A character given by its number behind `\u`, or by two numbers that form a pair. -/
def readUnicode? (cs : List Char) : Option (Char × List Char) := do
  let (unit, rest) ← readHex4? cs
  if 0xD800 ≤ unit ∧ unit < 0xDC00 then
    match rest with
    | '\\' :: 'u' :: rest =>
      let (low, rest) ← readHex4? rest
      if 0xDC00 ≤ low ∧ low < 0xE000 then
        return (Char.ofNat (0x10000 + (unit - 0xD800) * 0x400 + (low - 0xDC00)), rest)
      else none
    | _ => none
  else if 0xDC00 ≤ unit ∧ unit < 0xE000 then none
  else return (Char.ofNat unit, rest)

/-- The character that a backslash and the following letter stand for. -/
def readEscape? : List Char → Option (Char × List Char)
  | '"' :: rest => some ('"', rest)
  | '\\' :: rest => some ('\\', rest)
  | '/' :: rest => some ('/', rest)
  | 'n' :: rest => some ('\n', rest)
  | 't' :: rest => some ('\t', rest)
  | 'r' :: rest => some ('\r', rest)
  | 'b' :: rest => some (Char.ofNat 8, rest)
  | 'f' :: rest => some (Char.ofNat 12, rest)
  | 'u' :: rest => readUnicode? rest
  | _ => none

/-- The characters of a string behind its opening quote, and what follows the closing one. -/
def readChars? (fuel : Nat) (cs : List Char) : Option (List Char × List Char) :=
  match fuel, cs with
  | _, '"' :: rest => some ([], rest)
  | fuel + 1, '\\' :: rest => do
    let (c, rest) ← readEscape? rest
    let (others, rest) ← readChars? fuel rest
    return (c :: others, rest)
  | fuel + 1, c :: rest => do
    guard (32 ≤ c.toNat)
    let (others, rest) ← readChars? fuel rest
    return (c :: others, rest)
  | _, _ => none

/-- A string, and what follows it. -/
def readString? (cs : List Char) : Option (String × List Char) :=
  match cs with
  | '"' :: rest =>
    (readChars? rest.length rest).map fun (chars, rest) => (String.ofList chars, rest)
  | _ => none

/-- A character that can occur in a number. -/
def isNumeric (c : Char) : Bool :=
  c.isDigit || c = '-' || c = '+' || c = '.' || c = 'e' || c = 'E'

/-- The value of the text of a number behind its sign.  An integer has no point and no exponent, and
minus zero counts as a decimal. -/
def readDigits? (negative : Bool) (cs : List Char) : Option Json := do
  let (whole, fraction, tail) := Decimal.splitMantissa cs
  guard (!whole.isEmpty && (whole.length == 1 || whole.head? != some '0'))
  guard (!(cs.contains '.' && fraction.isEmpty))
  let exponent ← Decimal.readExponent? tail
  let digits := Decimal.digitsValue (whole ++ fraction)
  if fraction.isEmpty && tail.isEmpty && !(negative && digits == 0) then
    return integer (if negative then -(digits : Int) else digits)
  else return decimal negative digits (exponent - fraction.length)

/-- The value of the text of a number. -/
def readNumeral? : List Char → Option Json
  | '-' :: cs => readDigits? true cs
  | cs => readDigits? false cs

/-- Drop a word from the start of the text. -/
def dropWord? (word : String) (cs : List Char) : Option (List Char) :=
  if word.toList.isPrefixOf cs then some (cs.drop word.length) else none

mutual

/-- A value, and what follows it. -/
def readValue? (fuel : Nat) (cs : List Char) : Option (Json × List Char) :=
  match fuel with
  | 0 => none
  | fuel + 1 =>
    match skipSpace cs with
    | '[' :: rest =>
      match skipSpace rest with
      | ']' :: rest => some (array [], rest)
      | rest => (readItems? fuel rest).map fun (items, rest) => (array items, rest)
    | '\x7b' :: rest =>
      match skipSpace rest with
      | '\x7d' :: rest => some (object [], rest)
      | rest => (readMembers? fuel rest).map fun (members, rest) => (object members, rest)
    | '"' :: rest => (readString? ('"' :: rest)).map fun (s, rest) => (string s, rest)
    | 'n' :: rest => (dropWord? "ull" rest).map fun rest => (null, rest)
    | 't' :: rest => (dropWord? "rue" rest).map fun rest => (bool true, rest)
    | 'f' :: rest => (dropWord? "alse" rest).map fun rest => (bool false, rest)
    | rest => (readNumeral? (rest.takeWhile isNumeric)).map fun n => (n, rest.dropWhile isNumeric)

/-- The items of an array that is not empty, and what follows its closing bracket. -/
def readItems? (fuel : Nat) (cs : List Char) : Option (List Json × List Char) :=
  match fuel with
  | 0 => none
  | fuel + 1 => do
    let (item, rest) ← readValue? fuel cs
    match skipSpace rest with
    | ']' :: rest => return ([item], rest)
    | ',' :: rest =>
      let (items, rest) ← readItems? fuel rest
      return (item :: items, rest)
    | _ => none

/-- The members of an object that is not empty, and what follows its closing brace. -/
def readMembers? (fuel : Nat) (cs : List Char) : Option (List (String × Json) × List Char) :=
  match fuel with
  | 0 => none
  | fuel + 1 => do
    let (name, rest) ← readString? (skipSpace cs)
    match skipSpace rest with
    | ':' :: rest =>
      let (value, rest) ← readValue? fuel rest
      match skipSpace rest with
      | '\x7d' :: rest => return ([(name, value)], rest)
      | ',' :: rest =>
        let (members, rest) ← readMembers? fuel rest
        return ((name, value) :: members, rest)
      | _ => none
    | _ => none

end

/-- The value that a text stands for. -/
def read? (s : String) : Option Json := do
  let cs := s.toList
  let (value, rest) ← readValue? (2 * cs.length + 1) cs
  guard (skipSpace rest).isEmpty
  return value

/-- The number as binary64. -/
def float? : Json → Option Float
  | integer n => some (if n < 0 then -Decimal.ofDigits n.natAbs 0 else Decimal.ofDigits n.natAbs 0)
  | decimal negative digits exponent =>
    some (if negative then -Decimal.ofDigits digits exponent else Decimal.ofDigits digits exponent)
  | _ => none

/-- The value as a natural number below a bound. -/
def natBelow? (bound : Nat) : Json → Option Nat
  | integer n => if 0 ≤ n ∧ n < bound then some n.toNat else none
  | _ => none

end IntentGrammar.Json
