import ChangelogParameters.Decimal.Binary64

/-!
# From decimal to binary

The numbers of decimal notation, and two ways to bring them to the binary format.  The first
rounds once and is always nearest.  The second is what interchange texts are read with: the
significand is rounded on its own and then multiplied or divided by a rounded power of ten, so
that long significands can end up one step away from the nearest number.
-/

namespace ChangelogParameters

/-- The number `± significand · 10 ^ exponent`. -/
structure Scientific where
  /-- Whether the sign is a minus. -/
  negative : Bool
  /-- All digits, without the point. -/
  significand : Nat
  /-- The power of ten by which the significand is multiplied. -/
  exponent : Int
deriving DecidableEq, Repr

namespace Scientific

/-- The number of decimal digits of a natural number; zero has one. -/
def digitCount (n : Nat) : Nat :=
  (Nat.toDigits 10 n).length

/-! ### Rounding once -/

/-- The nearest binary number; none if the decimal is too large.  Exponents far outside the
range of the format are decided without computing their powers. -/
def nearest? (x : Scientific) : Option Binary64 :=
  let top := (digitCount x.significand : Int) + x.exponent
  if x.significand = 0 || top < -400 then some (.zero x.negative)
  else if 400 < top then none
  else if 0 ≤ x.exponent then
    Binary64.ofQuotient? x.negative (x.significand * Nat.pow 10 x.exponent.toNat) 1
  else Binary64.ofQuotient? x.negative x.significand (Nat.pow 10 (-x.exponent).toNat)

/-! ### Rounding twice -/

/-- The largest power of ten that the format reaches. -/
def largestPower : Nat := 308

/-- The rounded power of ten. -/
def power? (k : Nat) : Option Binary64 :=
  Binary64.ofNat? false (Nat.pow 10 k)

/-- Divides a rounded number by a power of ten, in steps of the largest power. -/
def divideByTens? (x : Binary64) (k : Nat) : Option Binary64 :=
  if k ≤ largestPower then (power? k).bind x.div?
  else if x.mantissa = 0 then some x
  else ((power? largestPower).bind x.div?).bind (divideByTens? · (k - largestPower))
termination_by k
decreasing_by
  have : largestPower = 308 := rfl
  omega

/-- The binary number reached by rounding the significand and then scaling it; none if it is too
large. -/
def scaled? (x : Scientific) : Option Binary64 :=
  (Binary64.ofNat? x.negative x.significand).bind fun f =>
    if x.exponent < 0 then
      -- beyond this exponent every significand of 64 bits has vanished
      divideByTens? f (min (-x.exponent).toNat 1000)
    else if x.significand = 0 then some f
    else if x.exponent.toNat ≤ largestPower then
      (power? x.exponent.toNat).bind f.mul?
    else none

end Scientific

end ChangelogParameters
