/-!
# The nearest binary64 number

A nonnegative fraction is rounded to the nearest binary64 number, of two equally near ones to the
one with an even last bit.  All arithmetic is on natural numbers, so the result is the correctly
rounded one whatever the size of the fraction.

With `q` the fraction divided by `2 ^ e` and rounded, where `e` is chosen so that `q` has 53 bits
(or `e = -1074`, the least exponent there is), the bit pattern is `(e + 1074) * 2 ^ 52 + q`: the
leading bit of `q` carries into the exponent field, and so does a `q` that was rounded up to
`2 ^ 53`.
-/

namespace IntentGrammar.Decimal

/-- `num / den` rounded to the nearest natural number, a half to the even neighbour. -/
def roundHalfEven (num den : Nat) : Nat :=
  let q := num / den
  let r := num % den
  if 2 * r < den then q
  else if den < 2 * r then q + 1
  else q + q % 2

/-- The bit pattern of infinity. -/
def infinityBits : Nat := 0x7FF0000000000000

/-- The value of the leading one of 53 bits, `2 ^ 52`. -/
def leadingBit : Nat := 0x10000000000000

/-- The exponent of the last of 53 bits of `num / den`, not below that of the least number. -/
def lastBitExponent (num den : Nat) : Int :=
  let e : Int := (num.log2 : Int) - (den.log2 : Int) - 53
  let q := if 0 ≤ e then num / (den <<< e.toNat) else (num <<< (-e).toNat) / den
  max (if q < 2 * leadingBit then e else e + 1) (-1074)

/-- The bit pattern of the binary64 number nearest to `num / den`. -/
def nearestBits (num den : Nat) : Nat :=
  if num = 0 then 0
  else
    let e := lastBitExponent num den
    let q :=
      if 0 ≤ e then roundHalfEven num (den <<< e.toNat)
      else roundHalfEven (num <<< (-e).toNat) den
    min ((e + 1074).toNat * leadingBit + q) infinityBits

/-- The binary64 number nearest to `num / den`. -/
def nearest (num den : Nat) : Float :=
  Float.ofBits (nearestBits num den).toUInt64

/-- The number of decimal digits of `n`, one for zero. -/
def digitCount (n : Nat) : Nat := (Nat.toDigits 10 n).length

/-- The binary64 number nearest to `digits * 10 ^ exponent`.  Past 310 digits before the point it
is infinity, and past 330 zeros behind the point it is zero. -/
def ofDigits (digits : Nat) (exponent : Int) : Float :=
  let reach := (digitCount digits : Int) + exponent
  if digits = 0 ∨ reach < -330 then 0.0
  else if 310 < reach then Float.ofBits infinityBits.toUInt64
  else if 0 ≤ exponent then nearest (digits * Nat.pow 10 exponent.toNat) 1
  else nearest digits (Nat.pow 10 (-exponent).toNat)

end IntentGrammar.Decimal
