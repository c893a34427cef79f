import IntentGrammar.Yaml.Layout
import IntentGrammar.Yaml.Node

/-!
# From tokens to a document

A text holds at most one document.  A document starts with directives and a mark, or at once with
its content; a mark may end it.  Reading goes forward in the tokens and takes one at least in every
second step, so it ends within three times as many steps as there are tokens.
-/

namespace IntentGrammar.Yaml

/-- The tokens that are left, what handles of tags stand for, and the names of nodes with their
labels. -/
structure Unread where
  tokens : List Token
  handles : List (Octets × Octets)
  names : List (String × Nat) := []

/-- Reading takes tokens or is refused. -/
abbrev Reading := StateT Unread Option

namespace Reading

/-- The next token. -/
def next : Reading (Option Token) := do return (← get).tokens.head?

/-- The next token is one of some. -/
def nextIn (tokens : List Token) : Reading Bool := do return (← next).any tokens.contains

/-- Take the next token. -/
def skip : Reading Unit := modify fun u => { u with tokens := u.tokens.drop 1 }

/-! ### Names and tags -/

/-- The alias for a name that is known. -/
def aliasOf (name : String) : Reading Node := do
  match (← get).names.lookup name with
  | some label => return .alias label
  | none => failure

/-- The label for a node with a name: the number of names known so far. -/
def labelFor (name : String) : Reading Nat := do
  let names := (← get).names
  modify fun u => { u with names := (name, names.length) :: names.filter (·.1 ≠ name) }
  return names.length

/-- The tag that a handle and a suffix stand for. -/
def tagOf (handle suffix : Octets) : Reading Octets := do
  if handle.isEmpty then return suffix
  else
    match (← get).handles.lookup handle with
    | some uri => return uri ++ suffix
    | none => failure

/-- Take the name of a node, if one comes next. -/
def anchor? : Reading (Option Nat) := do
  match ← next with
  | some (.anchor name) => skip; return some (← labelFor name)
  | _ => return none

/-- Take the tag of a node, if one comes next. -/
def tag? : Reading (Option Octets) := do
  match ← next with
  | some (.tag handle suffix) => skip; return some (← tagOf handle suffix)
  | _ => return none

/-- Take the name and the tag of a node, in either order. -/
def properties : Reading (Option Nat × Option Octets) := do
  match ← anchor? with
  | some label => return (some label, ← tag?)
  | none =>
    let tag ← tag?
    if tag.isSome then return (← anchor?, tag) else return (none, none)

/-! ### Nodes -/

mutual

/-- A node.  Blocks may be refused.  Behind a key the items of a sequence may follow without a block
of their own. -/
def node (fuel : Nat) (block indentless : Bool) : Reading Node :=
  match fuel with
  | 0 => failure
  | fuel + 1 => do
    if let some (.alias name) ← next then
      skip
      aliasOf name
    else
      let (label, tag) ← properties
      let token ← next
      if indentless && token = some .blockEntry then
        return .sequence label (← indentlessItems fuel)
      else if block && token = some .blockSequenceStart then
        skip
        return .sequence label (← items fuel)
      else if block && token = some .blockMappingStart then
        skip
        return .mapping label (← entries fuel)
      else
        match token with
        | some (.scalar style text) => skip; return .scalar label tag style text
        | some .flowSequenceStart => skip; return .sequence label (← flowItems fuel true)
        | some .flowMappingStart => skip; return .mapping label (← flowEntries fuel true)
        | _ =>
          if label.isSome || tag.isSome then return .scalar label tag .plain "" else failure

/-- The items of a block sequence and its end. -/
def items (fuel : Nat) : Reading (List Node) :=
  match fuel with
  | 0 => failure
  | fuel + 1 => do
    match ← next with
    | some .blockEntry =>
      skip
      let item ←
        if ← nextIn [.blockEntry, .blockEnd] then pure Node.empty else node fuel true false
      return item :: (← items fuel)
    | some .blockEnd => skip; return []
    | _ => failure

/-- The items of a sequence without a block of its own. -/
def indentlessItems (fuel : Nat) : Reading (List Node) :=
  match fuel with
  | 0 => failure
  | fuel + 1 => do
    match ← next with
    | some .blockEntry =>
      skip
      let item ←
        if ← nextIn [.blockEntry, .key, .value, .blockEnd] then pure Node.empty
        else node fuel true false
      return item :: (← indentlessItems fuel)
    | _ => return []

/-- A key or a value of a block mapping, behind its mark. -/
def part (fuel : Nat) : Reading Node :=
  match fuel with
  | 0 => failure
  | fuel + 1 => do
    if ← nextIn [.key, .value, .blockEnd] then return Node.empty else node fuel true true

/-- The entries of a block mapping and its end. -/
def entries (fuel : Nat) : Reading (List (Node × Node)) :=
  match fuel with
  | 0 => failure
  | fuel + 1 => do
    match ← next with
    | some .key =>
      skip
      let key ← part fuel
      let value ←
        if ← nextIn [.value] then
          skip
          part fuel
        else pure Node.empty
      return (key, value) :: (← entries fuel)
    | some .blockEnd => skip; return []
    | _ => failure

/-- The items of a flow sequence and its end.  An item with a mark of a key is a mapping with one
entry; a key that is left out takes the token behind its mark with it. -/
def flowItems (fuel : Nat) (first : Bool) : Reading (List Node) :=
  match fuel with
  | 0 => failure
  | fuel + 1 => do
    if ← nextIn [.flowSequenceEnd] then
      skip
      return []
    else
      unless first do
        if ← nextIn [.flowEntry] then skip else failure
      match ← next with
      | some .flowSequenceEnd => skip; return []
      | some .key =>
        skip
        let key ←
          if ← nextIn [.value, .flowEntry, .flowSequenceEnd] then
            skip
            pure Node.empty
          else node fuel false false
        let value ← flowValue fuel .flowSequenceEnd
        return .mapping none [(key, value)] :: (← flowItems fuel false)
      | _ =>
        let item ← node fuel false false
        return item :: (← flowItems fuel false)

/-- The value of an entry in flow style, which may be left out. -/
def flowValue (fuel : Nat) (close : Token) : Reading Node :=
  match fuel with
  | 0 => failure
  | fuel + 1 => do
    if ← nextIn [.value] then
      skip
      if ← nextIn [.flowEntry, close] then return Node.empty else node fuel false false
    else return Node.empty

/-- The entries of a flow mapping and its end.  An entry without a mark of a key has no value. -/
def flowEntries (fuel : Nat) (first : Bool) : Reading (List (Node × Node)) :=
  match fuel with
  | 0 => failure
  | fuel + 1 => do
    if ← nextIn [.flowMappingEnd] then
      skip
      return []
    else
      unless first do
        if ← nextIn [.flowEntry] then skip else failure
      match ← next with
      | some .flowMappingEnd => skip; return []
      | some .key =>
        skip
        let key ←
          if ← nextIn [.value, .flowEntry, .flowMappingEnd] then pure Node.empty
          else node fuel false false
        let value ← flowValue fuel .flowMappingEnd
        return (key, value) :: (← flowEntries fuel false)
      | _ =>
        let key ← node fuel false false
        return (key, Node.empty) :: (← flowEntries fuel false)

end

end Reading

/-! ### Documents -/

/-- What handles stand for unless a directive says otherwise. -/
def standardHandles : List (Octets × Octets) :=
  [(octets ['!'], octets ['!']), (octets ['!', '!'], octets "tag:yaml.org,2002:".toList)]

/-- Take the directives at the head of a document.  Only the versions 1.1 and 1.2 are known; neither
the version nor a handle may be given twice. -/
def readDirectives (versioned : Bool) (handles : List (Octets × Octets)) :
    List Token → Option (List (Octets × Octets) × List Token)
  | .version major minor :: ts =>
    if versioned || major ≠ 1 || (minor ≠ 1 && minor ≠ 2) then none
    else readDirectives true handles ts
  | .handle handle uri :: ts =>
    if (handles.lookup handle).isSome then none
    else readDirectives versioned ((handle, uri) :: handles) ts
  | ts => some (handles, ts)

/-- The content of a document, with the tokens behind it. -/
def readContent (handles : List (Octets × Octets)) (ts : List Token) :
    Option (Node × List Token) :=
  ((Reading.node (3 * ts.length + 3) true false).run { tokens := ts, handles }).map
    fun (node, u) => (node, u.tokens)

/-- The content of a document without a mark at its start, or with one behind its directives; in the
second case it may be left out. -/
def readDocument (ts : List Token) : Option (Node × List Token) :=
  match ts with
  | .version .. :: _ | .handle .. :: _ | .documentStart :: _ => do
    let (handles, ts) ← readDirectives false [] ts
    guard (ts.head? = some .documentStart)
    match ts.drop 1 with
    | [] => return (Node.empty, [])
    | .version .. :: _ | .handle .. :: _ | .documentStart :: _ | .documentEnd :: _ =>
      return (Node.empty, ts.drop 1)
    | ts => readContent (handles ++ standardHandles) ts
  | ts => readContent standardHandles ts

/-- The root of the only document of a text; none if the text holds nothing but white space and
comments.  The outer option is empty if the text is refused. -/
def read? (text : String) : Option (Option Node) := do
  match ← tokens? text with
  | [] => return none
  | ts =>
    let (root, ts) ← readDocument ts
    guard (ts.all (· = .documentEnd))
    return some root

end IntentGrammar.Yaml
