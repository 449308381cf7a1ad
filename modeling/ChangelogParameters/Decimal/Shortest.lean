import ChangelogParameters.Decimal.Binary64

/-!
# Shortest decimals

The decimal with the fewest digits that rounds to a given binary number.  The numbers that
round to it fill an interval, which contains its ends exactly when the mantissa is even.  A
decimal grid consists of the multiples of one power of ten; of all grids with a point in the
interval the coarsest is taken, and on it the point nearest to the number.
-/

namespace ChangelogParameters

/-- The decimal `digits · 10 ^ exponent`. -/
structure ShortDecimal where
  /-- The digits as a natural number. -/
  digits : Nat
  /-- The power of ten of the last digit. -/
  exponent : Int
deriving DecidableEq, Repr

namespace Binary64

/-! ### The interval -/

/-- A binary number with the ends of its interval, over one denominator. -/
structure Interval where
  /-- The numerator of the lower end. -/
  low : Nat
  /-- The numerator of the number itself. -/
  value : Nat
  /-- The numerator of the upper end. -/
  high : Nat
  /-- The denominator of all three. -/
  den : Nat
  /-- Whether the ends belong to the interval. -/
  closed : Bool
deriving Repr

/-- The interval of the decimals that round to a positive number.  Below a power of two the
numbers lie twice as close, so the lower half is half as wide. -/
def interval (x : Binary64) : Interval :=
  let below := if x.mantissa = Nat.pow 2 52 ∧ minExponent < x.exponent then 1 else 2
  let e := x.exponent - 2
  let (factor, den) := if 0 ≤ e then (Nat.pow 2 e.toNat, 1) else (1, Nat.pow 2 (-e).toNat)
  { low := (4 * x.mantissa - below) * factor
    value := 4 * x.mantissa * factor
    high := (4 * x.mantissa + 2) * factor
    den := den
    closed := x.mantissa % 2 == 0 }

/-! ### Grids -/

/-- The interval measured in units of a power of ten. -/
def Interval.inUnits (i : Interval) (k : Int) : Interval :=
  if 0 ≤ k then { i with den := i.den * Nat.pow 10 k.toNat }
  else
    let f := Nat.pow 10 (-k).toNat
    { i with low := i.low * f, value := i.value * f, high := i.high * f }

/-- Whether an integer lies in the interval. -/
def Interval.holds (i : Interval) (g : Nat) : Bool :=
  if i.closed then i.low ≤ g * i.den && g * i.den ≤ i.high
  else i.low < g * i.den && g * i.den < i.high

/-- The integer of the interval that is nearest to the number; of two equally near ones the
even one. -/
def Interval.nearest? (i : Interval) : Option Nat :=
  let g := i.value / i.den
  match i.holds g, i.holds (g + 1) with
  | true, true => some (roundQuotient i.value i.den)
  | true, false => some g
  | false, true => some (g + 1)
  | false, false => none

/-- The first point found on the grids of the powers of ten from `10 ^ k` downwards. -/
def Interval.coarsest (i : Interval) (k : Int) : Nat → ShortDecimal
  | 0 => ⟨0, 0⟩
  | grids + 1 =>
    match (i.inUnits k).nearest? with
    | some g => ⟨g, k⟩
    | none => i.coarsest (k - 1) grids

/-- The decimal with the fewest digits that rounds to the absolute value of a number.  The
search starts above the first digit, and seventeen digits always suffice. -/
def shortest (x : Binary64) : ShortDecimal :=
  if x.mantissa = 0 then ⟨0, 0⟩
  else
    let bits : Int := x.mantissa.log2 + x.exponent + 1
    x.interval.coarsest (bits * 30103 / 100000 + 1) 22

end Binary64

end ChangelogParameters
