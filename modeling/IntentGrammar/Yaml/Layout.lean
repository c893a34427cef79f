import IntentGrammar.Yaml.Block
import IntentGrammar.Yaml.Plain
import IntentGrammar.Yaml.Property
import IntentGrammar.Yaml.Quoted

/-!
# From text to tokens

Reading goes through a text once and writes down its tokens.  Three things are remembered on the
way.  The columns of the open blocks: a token left of one closes it, and a token right of all may
open a new one.  For every open bracket, and for block style around them, the place where a key may
have started: when its colon comes, the token of the key is put in front of what has been written
since.  And whether a key may start at all: in block style it may only do so behind a line break or
the mark of an entry.

A key has to end on the line where it starts and within 1024 bytes.  One that starts in the column
of the innermost block has to be a key, since nothing else may stand there.
-/

namespace IntentGrammar.Yaml

/-- The start of what may turn out to be a key. -/
structure PendingKey where
  place : Place
  /-- It cannot be anything but a key. -/
  required : Bool
  /-- The number of tokens in front of it. -/
  index : Nat

/-- A place is too far behind for a key that started there to end. -/
def PendingKey.isStale (k : PendingKey) (p : Place) : Bool :=
  k.place.line < p.line || k.place.bytes + 1024 < p.bytes

/-- How far the layout of a text is known. -/
structure Layout where
  cursor : Cursor
  tokens : Array Token := #[]
  /-- The columns of the open blocks, the innermost first. -/
  columns : List Nat := []
  /-- The key that may have started within the innermost bracket. -/
  key : Option PendingKey := none
  /-- The keys that may have started around the innermost bracket, the innermost first. -/
  outerKeys : List (Option PendingKey) := []
  keyAllowed : Bool := true

namespace Layout

/-- A bracket is open. -/
def flow (l : Layout) : Bool := !l.outerKeys.isEmpty

/-- The first column to the right of the innermost block's. -/
def least (l : Layout) : Nat := (l.columns.head?.map (· + 1)).getD 0

/-- Write a token down and go on behind it. -/
def push (l : Layout) (token : Token) (cursor : Cursor) : Layout :=
  { l with tokens := l.tokens.push token, cursor := cursor }

/-- Write a token of some characters down. -/
def mark (l : Layout) (token : Token) (length : Nat := 1) : Layout :=
  l.push token (l.cursor.forward length)

/-- Say whether a key may start next. -/
def allowKey (l : Layout) (allowed : Bool) : Layout := { l with keyAllowed := allowed }

/-! ### Keys -/

/-- Give up a key; one that is required cannot be given up. -/
def giveUp (k : Option PendingKey) : Option (Option PendingKey) :=
  if k.any (·.required) then none else some none

/-- Give up the innermost key. -/
def dropKey (l : Layout) : Option Layout := (giveUp l.key).map fun key => { l with key := key }

/-- Give up every key that has gone stale. -/
def dropStaleKeys (l : Layout) : Option Layout := do
  let check (k : Option PendingKey) :=
    if k.any (·.isStale l.cursor.place) then giveUp k else some k
  let key ← check l.key
  let outerKeys ← l.outerKeys.mapM check
  return { l with key, outerKeys }

/-- Remember that a key may start here. -/
def startKey (l : Layout) : Option Layout := do
  if l.keyAllowed then
    let l ← l.dropKey
    let required := !l.flow && l.columns.head? = some l.cursor.column
    return { l with key := some ⟨l.cursor.place, required, l.tokens.size⟩ }
  else return l

/-! ### Blocks -/

/-- Open a block in a column if it stands right of all others; its token goes in front of the tokens
from an index on. -/
def openBlock (l : Layout) (column index : Nat) (token : Token) : Layout :=
  if !l.flow && l.least ≤ column then
    { l with columns := column :: l.columns, tokens := l.tokens.insertIdxIfInBounds index token }
  else l

/-- Close the blocks that some columns belong to. -/
def closeBlocks (l : Layout) (isClosed : Nat → Bool) : Layout :=
  if l.flow then l
  else
    let closed := l.columns.takeWhile isClosed
    { l with
      columns := l.columns.drop closed.length
      tokens := l.tokens ++ List.replicate closed.length Token.blockEnd }

/-- Close all blocks and give up the key, as in front of a mark of a document. -/
def closeAll (l : Layout) : Option Layout := do
  let l ← (l.closeBlocks fun _ => true).dropKey
  return l.allowKey false

/-- Open a block for an entry whose mark comes next.  In block style an entry starts only where a
key may. -/
def openEntry (l : Layout) (token : Token) : Option Layout :=
  if l.flow then some l
  else if l.keyAllowed then some (l.openBlock l.cursor.column l.tokens.size token)
  else none

/-! ### Marks -/

/-- Read the mark of an item. -/
def readBlockEntry (l : Layout) : Option Layout := do
  let l ← (← l.openEntry .blockSequenceStart).dropKey
  return (l.allowKey true).mark .blockEntry

/-- Read the mark of a key. -/
def readKey (l : Layout) : Option Layout := do
  let l ← (← l.openEntry .blockMappingStart).dropKey
  return (l.allowKey !l.flow).mark .key

/-- Read the mark of a value.  What stands in front of it is its key, if a key may have started
there. -/
def readValue (l : Layout) : Option Layout := do
  match l.key with
  | some k =>
    let l := { l with key := none, tokens := l.tokens.insertIdxIfInBounds k.index .key }
    let l := l.openBlock k.place.column k.index .blockMappingStart
    return (l.allowKey false).mark .value
  | none =>
    let l ← l.openEntry .blockMappingStart
    return (l.allowKey !l.flow).mark .value

/-- Read an opening bracket. -/
def openBracket (l : Layout) (token : Token) : Option Layout := do
  let l ← l.startKey
  return { l.mark token with key := none, outerKeys := l.key :: l.outerKeys, keyAllowed := true }

/-- Read a closing bracket. -/
def closeBracket (l : Layout) (token : Token) : Option Layout := do
  let l ← l.dropKey
  let l := (l.allowKey false).mark token
  match l.outerKeys with
  | key :: outerKeys => return { l with key, outerKeys }
  | [] => return l

/-- Read a comma. -/
def readFlowEntry (l : Layout) : Option Layout := do
  let l ← l.dropKey
  return (l.allowKey true).mark .flowEntry

/-! ### Nodes -/

/-- Read a token that a key may start with. -/
def readNodePart (l : Layout) (read : Cursor → Option (Token × Cursor)) : Option Layout := do
  let l ← l.startKey
  let (token, cursor) ← read l.cursor
  return (l.allowKey false).push token cursor

/-- Read a plain scalar.  Behind one that ends with a line break a key may start. -/
def readPlain (l : Layout) : Option Layout := do
  let l ← l.startKey
  let (text, endsLine, cursor) ← Yaml.readPlain l.flow l.least {} l.cursor.place l.cursor.rest
  return (l.allowKey endsLine).push (.scalar .plain text) cursor

/-- Read a block scalar. -/
def readBlockScalar (l : Layout) (folded : Bool) : Option Layout := do
  let l ← l.dropKey
  let (text, cursor) ← Yaml.readBlockScalar folded l.least l.cursor
  return (l.allowKey true).push (.scalar (if folded then .other else .literal) text) cursor

/-! ### The whole text -/

/-- Read a mark or a directive that stands at the start of a line, if there is one. -/
def readLineStart? (l : Layout) : Option (Option Layout) :=
  if l.cursor.column ≠ 0 then none
  else if l.cursor.rest.head? = some '%' then
    some do
      let l ← l.closeAll
      let (token, cursor) ← readDirective l.cursor
      return l.push token cursor
  else if startsWithMark ['-', '-', '-'] l.cursor.rest then
    some (l.closeAll.map (·.mark .documentStart 3))
  else if startsWithMark ['.', '.', '.'] l.cursor.rest then
    some (l.closeAll.map (·.mark .documentEnd 3))
  else none

/-- Read the token that starts with a character, in front of others. -/
def readCharacter (l : Layout) (c : Char) (cs : List Char) : Option Layout :=
  match c with
  | '[' => l.openBracket .flowSequenceStart
  | '\x7b' => l.openBracket .flowMappingStart
  | ']' => l.closeBracket .flowSequenceEnd
  | '\x7d' => l.closeBracket .flowMappingEnd
  | ',' => l.readFlowEntry
  | '*' => l.readNodePart fun c => (readName c).map fun (name, c) => (.alias name, c)
  | '&' => l.readNodePart fun c => (readName c).map fun (name, c) => (.anchor name, c)
  | '!' => l.readNodePart (readTag l.flow)
  | '\'' => l.readNodePart fun c =>
      (readSingle {} (c.place.past '\'') cs).map fun (text, c) => (.scalar .other text, c)
  | '"' => l.readNodePart fun c =>
      (readDouble {} (c.forward 1)).map fun (text, c) => (.scalar .other text, c)
  | _ =>
    if c = '-' && atGap cs then l.readBlockEntry
    else if c = '?' && (l.flow || atGap cs) then l.readKey
    else if c = ':' && (l.flow || atGap cs) then l.readValue
    else if (c = '|' || c = '>') && !l.flow then l.readBlockScalar (c = '>')
    else if startsPlain l.flow (c :: cs) then l.readPlain
    else none

/-- Go to the next token, and close the blocks that end in front of it. -/
def advance (l : Layout) : Option Layout := do
  let (cursor, keyAllowed) := skipGaps l.flow l.keyAllowed false l.cursor.place l.cursor.rest
  let l ← { l with cursor, keyAllowed }.dropStaleKeys
  return l.closeBlocks (l.cursor.column < ·)

/-- Read all tokens.  Every step takes at least one character. -/
def readTokens (fuel : Nat) (l : Layout) : Option (List Token) :=
  match fuel with
  | 0 => none
  | fuel + 1 => do
    let l ← l.advance
    match l.cursor.rest with
    | [] => return (← l.closeAll).tokens.toList
    | c :: cs => readTokens fuel (← l.readLineStart?.getD (l.readCharacter c cs))

end Layout

/-- The tokens of a text. -/
def tokens? (text : String) : Option (List Token) := do
  let cs := text.toList
  guard (cs.all isAllowed)
  let cs := unifyBreaks cs
  Layout.readTokens (cs.length + 1) { cursor := { rest := cs } }

end IntentGrammar.Yaml
