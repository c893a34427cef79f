import IntentGrammar.Hash.Sha256

/-!
# Grammars

A grammar is a list of definitions.  An *intent* is what a user may want, and its sentences are
the ways to say it; a *slot* is a place in a sentence whose words are a value to be recognised; an
*alias* is a phrase with several wordings.  A definition is known by its kind, its name and, for
slots and aliases, an optional variation; a sentence refers to slots and aliases by these parts.
-/

namespace IntentGrammar

/-- What a definition stands for. -/
inductive Kind where
  | intent
  | slot
  | alias
  deriving DecidableEq, Repr

namespace Kind

/-- The character that a definition or a reference of the kind starts with. -/
def sigil : Kind → Char
  | intent => '%'
  | slot => '@'
  | .alias => '~'

/-- The kind that a character announces. -/
def ofSigil? (c : Char) : Option Kind :=
  if c = '%' then some intent
  else if c = '@' then some slot
  else if c = '~' then some .alias
  else none

theorem ofSigil?_eq_some_iff {c : Char} {k : Kind} : ofSigil? c = some k ↔ c = k.sigil := by
  constructor
  · intro h
    unfold ofSigil? at h
    split at h
    · cases h; assumption
    · split at h
      · cases h; assumption
      · split at h
        · cases h; assumption
        · cases h
  · rintro rfl
    cases k <;> rfl

/-- The place of the kind in the order of keys. -/
def rank : Kind → Nat
  | intent => 0
  | slot => 1
  | .alias => 2

end Kind

/-- What tells a definition from the others. -/
structure Key where
  kind : Kind
  name : String
  variation : Option String := none
  deriving DecidableEq, Repr

namespace Key

/-- A key as it stands at the head of its definition. -/
def text (k : Key) : String :=
  let label := match k.variation with
    | some v => k.name ++ "#" ++ v
    | none => k.name
  String.singleton k.kind.sigil ++ "[" ++ label ++ "]"

/-- No variation comes before any variation. -/
def variationLe : Option String → Option String → Bool
  | none, _ => true
  | some _, none => false
  | some a, some b => a ≤ b

/-- Keys are ordered by kind, then name, then variation. -/
def le (a b : Key) : Bool :=
  if a.kind.rank ≠ b.kind.rank then a.kind.rank < b.kind.rank
  else if a.name ≠ b.name then a.name < b.name
  else variationLe a.variation b.variation

/-- The keys in order. -/
def sorted (ks : List Key) : List Key := ks.mergeSort le

end Key

/-- A reference to a definition from within a sentence. -/
structure Reference where
  kind : Kind
  name : String
  argument : Option String
  optional : Bool
  column : Nat
  deriving DecidableEq, Repr

/-- The key of the definition that a reference asks for. -/
def Reference.target (r : Reference) : Key := ⟨r.kind, r.name, r.argument⟩

/-- A part of a sentence. -/
inductive Element where
  | literal (text : String) (optional : Bool)
  | reference (r : Reference)
  deriving DecidableEq, Repr

/-- One sentence of a definition, with its weight in percent if it has one. -/
structure Alternative where
  elements : List Element
  weight : Option Float
  line : Nat
  deriving Repr

/-- A definition with its header arguments and its sentences. -/
structure Definition where
  key : Key
  arguments : List (String × String)
  alternatives : List Alternative
  line : Nat
  deriving Repr

/-- The value of a header argument. -/
def Definition.argument? (d : Definition) (name : String) : Option String :=
  d.arguments.lookup name

/-- Definitions in the order of their declaration, with the text they were read from. -/
structure Grammar where
  definitions : List Definition
  source : String

namespace Grammar

/-- The definitions of intents. -/
def intents (g : Grammar) : List Definition :=
  g.definitions.filter (·.key.kind = .intent)

/-- The first definition with a key. -/
def find? (g : Grammar) (key : Key) : Option Definition :=
  g.definitions.find? (·.key = key)

/-- The SHA-256 hash of the text of the grammar. -/
def contentHash (g : Grammar) : String := Sha256.hex g.source.toUTF8.toList

end Grammar

end IntentGrammar
