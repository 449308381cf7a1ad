/-!
# Binary floating point numbers

The finite numbers of the 64-bit binary format, as integers: a sign, a mantissa of at most 53
bits and a power of two.  Exact quotients of natural numbers are rounded to the nearest such
number, and of two equally near ones to that with the even mantissa.
-/

namespace ChangelogParameters

/-- The number `± mantissa · 2 ^ exponent`.  The mantissa is below `2 ^ 53`, and it is at least
`2 ^ 52` unless the exponent is the smallest one. -/
structure Binary64 where
  /-- Whether the sign is a minus; zero has a sign as well. -/
  negative : Bool
  /-- The digits, as a natural number. -/
  mantissa : Nat
  /-- The power of two by which the mantissa is multiplied. -/
  exponent : Int
deriving DecidableEq, Repr, Inhabited

namespace Binary64

/-- The smallest exponent. -/
def minExponent : Int := -1074

/-- The largest exponent. -/
def maxExponent : Int := 971

/-- The zero of a sign. -/
def zero (negative : Bool) : Binary64 := ⟨negative, 0, minExponent⟩

/-! ### Rounding -/

/-- The integer nearest to a quotient, and the even one of two that are equally near. -/
def roundQuotient (num den : Nat) : Nat :=
  let q := num / den
  let r := num % den
  if den < 2 * r || (2 * r == den && q % 2 == 1) then q + 1 else q

/-- Numerator and denominator of a quotient divided by a power of two. -/
def divideByPower (num den : Nat) (e : Int) : Nat × Nat :=
  if 0 ≤ e then (num, den * Nat.pow 2 e.toNat) else (num * Nat.pow 2 (-e).toNat, den)

/-- The exponent at which the mantissa of a positive quotient has 53 bits, or the smallest
exponent if that is larger. -/
def exponentOf (num den : Nat) : Int :=
  let e : Int := (num.log2 : Int) - den.log2 - 52
  let (n, d) := divideByPower num den e
  max minExponent (if n < d * Nat.pow 2 52 then e - 1 else e)

/-- The number nearest to a quotient; none if that is too large for the format. -/
def ofQuotient? (negative : Bool) (num den : Nat) : Option Binary64 :=
  if num = 0 then some (zero negative)
  else
    let e := exponentOf num den
    let (n, d) := divideByPower num den e
    let m := roundQuotient n d
    let (m, e) := if m = Nat.pow 2 53 then (Nat.pow 2 52, e + 1) else (m, e)
    if e ≤ maxExponent then some ⟨negative, m, e⟩ else none

/-- The number nearest to a natural number. -/
def ofNat? (negative : Bool) (n : Nat) : Option Binary64 :=
  ofQuotient? negative n 1

/-! ### Arithmetic -/

/-- The absolute value as a quotient. -/
def magnitude (x : Binary64) : Nat × Nat :=
  if 0 ≤ x.exponent then (x.mantissa * Nat.pow 2 x.exponent.toNat, 1)
  else (x.mantissa, Nat.pow 2 (-x.exponent).toNat)

/-- The rounded product with a positive number. -/
def mul? (x y : Binary64) : Option Binary64 :=
  ofQuotient? x.negative (x.magnitude.1 * y.magnitude.1) (x.magnitude.2 * y.magnitude.2)

/-- The rounded quotient by a positive number. -/
def div? (x y : Binary64) : Option Binary64 :=
  ofQuotient? x.negative (x.magnitude.1 * y.magnitude.2) (x.magnitude.2 * y.magnitude.1)

end Binary64

end ChangelogParameters
