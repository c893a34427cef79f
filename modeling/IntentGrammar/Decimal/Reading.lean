import IntentGrammar.Decimal.Nearest

/-!
# Reading decimal numbers

A number is written as digits with an optional point and an optional exponent, or as one of the
words `inf`, `infinity` and `nan` in any case, each with an optional sign.  The mantissa needs one
digit, before the point or behind it.
-/

namespace IntentGrammar.Decimal

/-- The value of a list of decimal digits. -/
def digitsValue (ds : List Char) : Nat :=
  ds.foldl (fun n d => 10 * n + (d.toNat - '0'.toNat)) 0

/-- A leading sign, `true` for minus, and what follows it. -/
def splitSign : List Char → Bool × List Char
  | '-' :: cs => (true, cs)
  | '+' :: cs => (false, cs)
  | cs => (false, cs)

/-- The decimal exponent `e…` that makes up the whole text, zero if the text is empty. -/
def readExponent? : List Char → Option Int
  | [] => some 0
  | c :: cs =>
    if c = 'e' ∨ c = 'E' then
      let (minus, ds) := splitSign cs
      if ds.isEmpty || !ds.all Char.isDigit then none
      else some (if minus then -(digitsValue ds : Int) else digitsValue ds)
    else none

/-- The digits before the point, those behind it, and what follows. -/
def splitMantissa (cs : List Char) : List Char × List Char × List Char :=
  let whole := cs.takeWhile Char.isDigit
  match cs.dropWhile Char.isDigit with
  | '.' :: rest => (whole, rest.takeWhile Char.isDigit, rest.dropWhile Char.isDigit)
  | rest => (whole, [], rest)

/-- A decimal number without sign. -/
def readUnsigned? (cs : List Char) : Option Float := do
  let (whole, fraction, rest) := splitMantissa cs
  guard (!(whole.isEmpty && fraction.isEmpty))
  let exponent ← readExponent? rest
  return ofDigits (digitsValue (whole ++ fraction)) (exponent - fraction.length)

/-- The words for numbers that have no digits. -/
def readWord? (cs : List Char) : Option Float :=
  let word := cs.map Char.toLower
  if word = "inf".toList ∨ word = "infinity".toList then some (1.0 / 0.0)
  else if word = "nan".toList then some (0.0 / 0.0)
  else none

/-- The binary64 number that a text stands for. -/
def read? (cs : List Char) : Option Float := do
  let (minus, rest) := splitSign cs
  let magnitude ← readWord? rest <|> readUnsigned? rest
  return if minus then -magnitude else magnitude

end IntentGrammar.Decimal
