import IntentGrammar.Json.Reading
import IntentGrammar.Yaml.Place
import IntentGrammar.Yaml.Token

/-!
# Names, tags and directives

A node may have a name in front of it, by which other places stand for it, and a tag, which says
what kind of value it is.  A tag is given by a URI between angles, or by a handle and a suffix;
directives at the head of a document say what its handles stand for.
-/

namespace IntentGrammar.Yaml

/-! ### Names -/

/-- A name of ASCII characters behind the mark of an anchor or an alias. -/
def readName (c : Cursor) : Option (String × Cursor) :=
  let name := (c.rest.drop 1).takeWhile isNameChar
  let rest := (c.rest.drop 1).drop name.length
  if !name.isEmpty && (atGap rest || rest.head?.any "?:,]\x7d%@\x60".toList.contains) then
    some (String.ofList name, c.forwardTo rest)
  else none

/-! ### Tags -/

/-- How many bytes of the form `10xxxxxx` follow the first byte of a character. -/
def trailing? (byte : Nat) : Option Nat :=
  if byte < 0x80 then some 0
  else if 0xC0 ≤ byte && byte < 0xE0 then some 1
  else if 0xE0 ≤ byte && byte < 0xF0 then some 2
  else if 0xF0 ≤ byte && byte < 0xF8 then some 3
  else none

/-- The byte given by two hexadecimal digits, and how many more bytes its character takes if `due`
bytes are missing of the one in front of it. -/
def byteOfDigits? (due : Nat) (a b : Char) : Option (Nat × Nat) := do
  let byte := 16 * (← Json.hexDigit? a) + (← Json.hexDigit? b)
  match due with
  | 0 => return (byte, ← trailing? byte)
  | due + 1 =>
    guard (0x80 ≤ byte && byte < 0xC0)
    return (byte, due)

/-- The characters that stand for themselves in a URI.  Commas and square brackets are among them
where the URI has an end of its own. -/
def isUriChar (whole : Bool) (c : Char) : Bool :=
  isNameChar c || ";/?:@&=+$.!~*'()".toList.contains c || (whole && (c = ',' || c = '[' || c = ']'))

/-- The bytes of the URI that a text starts with, and what follows it.  A percent sign gives a byte
by two digits; such bytes form characters of UTF-8, of which `due` bytes are missing. -/
def readUri (whole : Bool) (due : Nat) : List Char → Option (Octets × List Char)
  | '%' :: a :: b :: cs => do
    let (byte, due) ← byteOfDigits? due a b
    let (uri, rest) ← readUri whole due cs
    return (UInt8.ofNat byte :: uri, rest)
  | c :: cs =>
    if 0 < due || c = '%' then none
    else if isUriChar whole c then
      (readUri whole 0 cs).map fun (uri, rest) => (UInt8.ofNat c.toNat :: uri, rest)
    else some ([], c :: cs)
  | [] => if 0 < due then none else some ([], [])

/-- A URI that is not empty.  What follows a zero byte in it does not count. -/
def readWholeUri (whole : Bool) (cs : List Char) : Option (Octets × List Char) := do
  let (uri, rest) ← readUri whole 0 cs
  guard !uri.isEmpty
  return (uri.takeWhile (· ≠ 0), rest)

/-- A tag without the character that has to end it.  A handle is a name between exclamation marks;
without one the handle is a single exclamation mark, and an exclamation mark on its own is a tag
without a handle. -/
def readTagBody : List Char → Option (Token × List Char)
  | '!' :: '<' :: cs => do
    let (uri, rest) ← readWholeUri true cs
    guard (rest.head? = some '>')
    return (.tag [] uri, rest.drop 1)
  | '!' :: cs => do
    let name := cs.takeWhile isNameChar
    match cs.drop name.length with
    | '!' :: cs =>
      let (uri, rest) ← readWholeUri false cs
      return (.tag (octets ('!' :: name ++ ['!'])) uri, rest)
    | cs =>
      let (uri, rest) ← readUri false 0 cs
      let suffix := (octets name ++ uri).takeWhile (· ≠ 0)
      return (if suffix.isEmpty then .tag [] (octets ['!']) else .tag (octets ['!']) suffix, rest)
  | _ => none

/-- A tag. -/
def readTag (flow : Bool) (c : Cursor) : Option (Token × Cursor) := do
  let (token, rest) ← readTagBody c.rest
  guard (atGap rest || (flow && rest.head? = some ','))
  return (token, c.forwardTo rest)

/-! ### Directives -/

/-- A number of at most nine digits. -/
def readNumber (cs : List Char) : Option (Nat × List Char) :=
  let digits := cs.takeWhile Char.isDigit
  if digits.isEmpty || 9 < digits.length then none
  else some (digits.foldl (fun n d => 10 * n + (d.toNat - '0'.toNat)) 0, cs.drop digits.length)

/-- The version of YAML that a directive asks for. -/
def readVersion (cs : List Char) : Option (Token × List Char) := do
  let (major, cs) ← readNumber cs
  guard (cs.head? = some '.')
  let (minor, cs) ← readNumber (cs.drop 1)
  return (.version major minor, cs)

/-- The handle in a directive and what it stands for. -/
def readHandle (cs : List Char) : Option (Token × List Char) := do
  guard (cs.head? = some '!')
  let name := (cs.drop 1).takeWhile isNameChar
  let cs := (cs.drop 1).drop name.length
  let closed := cs.head? = some '!'
  guard (closed || name.isEmpty)
  let cs := if closed then cs.drop 1 else cs
  guard (cs.head?.any isGap)
  let (uri, cs) ← readWholeUri true (cs.dropWhile isGap)
  guard (atGap cs)
  return (.handle (octets ('!' :: name ++ if closed then ['!'] else [])) uri, cs)

/-- A directive, with the rest of its line. -/
def readDirective (c : Cursor) : Option (Token × Cursor) := do
  let body := c.rest.drop 1
  let name := body.takeWhile isNameChar
  let cs := body.drop name.length
  guard (atGap cs)
  let (token, cs) ←
    if name = ['Y', 'A', 'M', 'L'] then readVersion (cs.dropWhile isGap)
    else if name = ['T', 'A', 'G'] then readHandle (cs.dropWhile isGap)
    else none
  let cs := cs.dropWhile isGap
  let cs := if cs.head? = some '#' then cs.dropWhile (!isBreak ·) else cs
  guard (cs.head?.all isBreak)
  return (token, (c.forwardTo cs).forward 1)

end IntentGrammar.Yaml
