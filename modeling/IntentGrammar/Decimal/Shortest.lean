import IntentGrammar.Decimal.Nearest

/-!
# The shortest decimal text of a number

A binary64 number is written with the fewest decimal digits that read back as the same number; of
several such digit strings it is the nearest to the number, and of two equally near ones the greater
one.  The text is positional, without an exponent.

The numbers that round to `m * 2 ^ q` form an interval around it that reaches half way to either
neighbour, with the ends belonging to it when `m` is even.  If a decimal grid has a point in the
interval then one of the two grid points around the number itself lies in it, so it is enough to
look at these two on the grids of one digit, two digits, and so on.
-/

namespace IntentGrammar.Decimal

/-- A positive fraction together with the fractions that round to it. -/
structure Rounding where
  num : Nat
  den : Nat
  /-- How far down the interval reaches, as a multiple of `1 / den`. -/
  below : Nat
  /-- How far up the interval reaches, as a multiple of `1 / den`. -/
  above : Nat
  /-- The ends of the interval round to the fraction as well. -/
  closed : Bool

/-- The number with the 63 bits `bits` below the sign, which are not zero. -/
def Rounding.ofBits (bits : Nat) : Rounding :=
  let field := bits / leadingBit
  let fraction := bits % leadingBit
  let m := if field = 0 then fraction else leadingBit + fraction
  let q : Int := (max field 1 : Nat) - 1075
  let below := if fraction = 0 ∧ 1 < field then 1 else 2
  let up := q.toNat
  let down := (-q).toNat
  { num := (4 * m) <<< up, den := 4 <<< down, below := below <<< up, above := 2 <<< up
    closed := m % 2 = 0 }

/-- `n / d` rounds to the number. -/
def Rounding.accepts (v : Rounding) (n d : Nat) : Bool :=
  let x := n * v.den
  let low := (v.num - v.below) * d
  let high := (v.num + v.above) * d
  if v.closed then low ≤ x && x ≤ high else low < x && x < high

/-- The exponent of the leading decimal digit. -/
def Rounding.magnitude (v : Rounding) : Int :=
  (digitCount (v.num * Nat.pow 10 400 / v.den) : Int) - 401

/-- A decimal numeral: `digits * 10 ^ exponent`. -/
structure Numeral where
  digits : Nat
  exponent : Int

/-- Of the two points around the number on the grid `10 ^ exponent`, the one that reads back. -/
def Rounding.onGrid? (v : Rounding) (exponent : Int) : Option Numeral :=
  let up := Nat.pow 10 exponent.toNat
  let down := Nat.pow 10 (-exponent).toNat
  let num := v.num * down
  let den := v.den * up
  let low := num / den
  let fromLow := num - low * den
  let lowHits := v.accepts (low * up) down
  let highHits := v.accepts ((low + 1) * up) down
  if lowHits && (2 * fromLow < den || !highHits) then some ⟨low, exponent⟩
  else if highHits then some ⟨low + 1, exponent⟩
  else none

/-- The shortest numeral that reads back; seventeen digits always do.  A numeral on the coarsest
grid may have been rounded up to ten, which is one on the next coarser grid. -/
def Rounding.shortest (v : Rounding) : Numeral :=
  let lead := v.magnitude
  match (List.range 17).findSome? fun (k : Nat) => v.onGrid? (lead - (k : Int)) with
  | some ⟨10, exponent⟩ => ⟨1, exponent + 1⟩
  | some numeral => numeral
  | none => ⟨0, 0⟩

/-- A numeral written out with a point and no exponent. -/
def Numeral.text (n : Numeral) : String :=
  let ds := Nat.toDigits 10 n.digits
  if 0 ≤ n.exponent then String.ofList (ds ++ List.replicate n.exponent.toNat '0')
  else
    let places := (-n.exponent).toNat
    let padded := List.replicate (places + 1 - ds.length) '0' ++ ds
    let whole := padded.length - places
    String.ofList (padded.take whole ++ '.' :: padded.drop whole)

/-- The bit that is set in the pattern of a negative number, `2 ^ 63`. -/
def signBit : Nat := 0x8000000000000000

/-- The shortest positional text of a number. -/
def text (x : Float) : String :=
  let bits := x.toBits.toNat
  let magnitude := bits % signBit
  let sign := if signBit ≤ bits then "-" else ""
  if infinityBits < magnitude then "NaN"
  else if magnitude = infinityBits then sign ++ "inf"
  else if magnitude = 0 then sign ++ "0"
  else sign ++ (Rounding.ofBits magnitude).shortest.text

end IntentGrammar.Decimal
