/-!
# YAML tokens

A YAML text is a sequence of tokens.  Marks of block style do not all stand in the text: the start
and the end of a block follow from the columns of its entries, and a key is known as one by the
colon behind it.
-/

namespace IntentGrammar.Yaml

/-- The bytes of a tag, which need not be the bytes of a text. -/
abbrev Octets := List UInt8

/-- The bytes of an ASCII text. -/
def octets (cs : List Char) : Octets := cs.map fun c => UInt8.ofNat c.toNat

/-- How a scalar is written, as far as its value depends on it. -/
inductive Style where
  /-- Without quotes. -/
  | plain
  /-- As a block that keeps its line breaks. -/
  | literal
  /-- In quotes, or as a block that folds its line breaks. -/
  | other
  deriving DecidableEq

/-- What a YAML text consists of. -/
inductive Token where
  /-- The version of YAML that a document asks for. -/
  | version (major minor : Nat)
  /-- What the handle of a tag stands for. -/
  | handle (handle uri : Octets)
  | documentStart
  | documentEnd
  | blockSequenceStart
  | blockMappingStart
  | blockEnd
  | flowSequenceStart
  | flowSequenceEnd
  | flowMappingStart
  | flowMappingEnd
  /-- The dash in front of an item. -/
  | blockEntry
  /-- The comma between items. -/
  | flowEntry
  | key
  | value
  /-- A name that stands for a node. -/
  | alias (name : String)
  /-- The name of the node that follows. -/
  | anchor (name : String)
  /-- The tag of the node that follows. -/
  | tag (handle suffix : Octets)
  | scalar (style : Style) (text : String)
  deriving DecidableEq

end IntentGrammar.Yaml
