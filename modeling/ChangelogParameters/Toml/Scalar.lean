import ChangelogParameters.Decimal.Scientific
import ChangelogParameters.Text.Blank
import ChangelogParameters.Text.Escape
import ChangelogParameters.Text.Reader
import ChangelogParameters.Value

/-!
# Unquoted scalars in TOML

Truth values, numbers and moments are written without quotes.  Digits may be grouped by single
underscores.  Integers have 64 bits and a sign.  A moment, that is a date, a time of day or both,
has no counterpart among values; it becomes an object whose only member holds its text.
-/

namespace ChangelogParameters

namespace Toml

/-! ### Digits -/

/-- The digits of a group, without the underscores between them. -/
def digitsOf? (base : Nat) (cs : List Char) : Option (List Char) :=
  let groups := Text.pieces '_' cs
  if groups.all (fun g => !g.isEmpty && g.all (Text.isDigitOf base)) then some groups.flatten
  else none

/-- The digits of a whole number, which has no zero in front of other digits. -/
def wholeOf? (cs : List Char) : Option (List Char) :=
  if cs.head? == some '0' && cs.length ≠ 1 then none else digitsOf? 10 cs

/-- Whether a text has a minus in front, and what comes after the sign. -/
def splitSign : List Char → Bool × List Char
  | '-' :: cs => (true, cs)
  | '+' :: cs => (false, cs)
  | cs => (false, cs)

/-! ### Integers -/

/-- Whether an integer fits 64 bits with a sign. -/
def fitsInteger (n : Int) : Bool :=
  -9223372036854775808 ≤ n && n < 9223372036854775808

/-- The integer written in a text; bases other than ten have no sign. -/
def integer? (cs : List Char) : Option Int := do
  let n : Int ← match cs with
    | '0' :: 'x' :: ds => (digitsOf? 16 ds).map fun ds => (Text.ofDigits 16 ds : Int)
    | '0' :: 'o' :: ds => (digitsOf? 8 ds).map fun ds => (Text.ofDigits 8 ds : Int)
    | '0' :: 'b' :: ds => (digitsOf? 2 ds).map fun ds => (Text.ofDigits 2 ds : Int)
    | cs =>
      let (negative, ds) := splitSign cs
      (wholeOf? ds).map fun ds =>
        if negative then -(Text.ofDigits 10 ds : Int) else Text.ofDigits 10 ds
  if fitsInteger n then some n else none

/-! ### Floating point numbers -/

/-- The parts of a text before and after the first character with a property. -/
def splitAtFirst (p : Char → Bool) (cs : List Char) : List Char × Option (List Char) :=
  match cs.dropWhile (!p ·) with
  | [] => (cs, none)
  | _ :: after => (cs.takeWhile (!p ·), some after)

/-- The exponent written in a text. -/
def exponent? (cs : List Char) : Option Int :=
  let (negative, ds) := splitSign cs
  (digitsOf? 10 ds).map fun ds =>
    if negative then -(Text.ofDigits 10 ds : Int) else Text.ofDigits 10 ds

/-- The decimal written in a text with a point or an exponent. -/
def decimal? (cs : List Char) : Option Scientific := do
  let (negative, cs) := splitSign cs
  let (mantissa, exponent) := splitAtFirst (fun c => c == 'e' || c == 'E') cs
  let (whole, fraction) := splitAtFirst (· == '.') mantissa
  if fraction.isNone && exponent.isNone then none
  let whole ← wholeOf? whole
  let fraction ← (fraction.map (digitsOf? 10)).getD (some [])
  let exponent ← (exponent.map exponent?).getD (some 0)
  return ⟨negative, Text.ofDigits 10 (whole ++ fraction), exponent - fraction.length⟩

/-- The value of a floating point number written in a text.  Infinities and what is not a number
are null, but a positive number that is too large is refused. -/
def real? (cs : List Char) : Option Value :=
  let (negative, special) := splitSign cs
  if special = ['i', 'n', 'f'] ∨ special = ['n', 'a', 'n'] then some .null
  else do
    let x ← decimal? cs
    match x.nearest? with
    | some x => return .number (.real x)
    | none => if negative then return .null else none

/-! ### Moments -/

/-- The key under which a moment holds its text. -/
def momentKey : String := "$__toml_private_datetime"

/-- Reads a number with the given count of digits that lies between two bounds. -/
def boundedDigits (count low high : Nat) : Reader (List Char) := fun cs =>
  let ds := cs.take count
  let n := Text.ofDigits 10 ds
  if ds.length = count && ds.all Char.isDigit && low ≤ n && n ≤ high then
    some (ds, cs.drop count)
  else none

/-- The number of days of a month. -/
def daysIn (year month : Nat) : Nat :=
  if month = 2 then
    if year % 4 = 0 && (year % 100 ≠ 0 || year % 400 = 0) then 29 else 28
  else if month = 4 || month = 6 || month = 9 || month = 11 then 30
  else 31

/-- Reads a date and returns its text. -/
def readDate : Reader (List Char) := do
  let year ← boundedDigits 4 0 9999
  Reader.char '-'
  let month ← boundedDigits 2 1 12
  Reader.char '-'
  let day ← boundedDigits 2 1 (daysIn (Text.ofDigits 10 year) (Text.ofDigits 10 month))
  pure (year ++ '-' :: month ++ '-' :: day)

/-- The fraction of a second with at most nine digits, and without zeros at the end. -/
def fractionText (digits : List Char) : List Char :=
  match ((digits.take 9).reverse.dropWhile (· == '0')).reverse with
  | [] => []
  | ds => '.' :: ds

/-- Reads a time of day and returns its text. -/
def readTime : Reader (List Char) := do
  let hour ← boundedDigits 2 0 23
  Reader.char ':'
  let minute ← boundedDigits 2 0 59
  Reader.char ':'
  let second ← boundedDigits 2 0 60
  let fraction ← Reader.optional? (do Reader.char '.'; Reader.takeWhile1 Char.isDigit)
  pure (hour ++ ':' :: minute ++ ':' :: second ++ fractionText (fraction.getD []))

/-- Reads the distance from universal time and returns its text. -/
def readOffset : Reader (List Char) := do
  let c ← Reader.satisfy fun c => c == 'Z' || c == 'z' || c == '+' || c == '-'
  if c == 'Z' || c == 'z' then pure ['Z']
  else
    let hour ← boundedDigits 2 0 23
    Reader.char ':'
    let minute ← boundedDigits 2 0 59
    let none := hour == ['0', '0'] && minute == ['0', '0']
    pure ((if none then '+' else c) :: hour ++ ':' :: minute)

/-- Reads a moment and returns its text. -/
def readMoment : Reader (List Char) := do
  match ← Reader.optional? readDate with
  | none => readTime
  | some date =>
    match ← Reader.look with
    | none => pure date
    | some _ =>
      let _ ← Reader.satisfy fun c => c == 'T' || c == 't' || c == ' '
      let time ← readTime
      let offset ← Reader.optional? readOffset
      pure (date ++ 'T' :: time ++ offset.getD [])

/-- The value of a moment written in a text. -/
def moment? (cs : List Char) : Option Value :=
  match readMoment cs with
  | some (text, []) => some (.object [(momentKey, .string (String.ofList text))])
  | _ => none

/-! ### Scalars -/

/-- The value of an unquoted scalar. -/
def scalar? (cs : List Char) : Option Value :=
  if cs = ['t', 'r', 'u', 'e'] then some (.bool true)
  else if cs = ['f', 'a', 'l', 's', 'e'] then some (.bool false)
  else match moment? cs, integer? cs with
    | some v, _ => some v
    | none, some n => some (.ofInt n)
    | none, none => real? cs

/-- Whether a character can be part of an unquoted scalar. -/
def isScalarChar (c : Char) : Bool :=
  c.isAlphanum || c == '_' || c == '+' || c == '-' || c == '.' || c == ':'

/-- Reads an unquoted scalar.  A date may go on with a time of day after a space. -/
def readScalar : Reader Value := do
  let cs ← Reader.takeWhile1 isScalarChar
  let more ← Reader.optional? (do
    if (readDate cs).map (·.2) == some [] then Reader.char ' ' else Reader.fail
    Reader.takeWhile1 fun c => isScalarChar c)
  match scalar? (match more with | some time => cs ++ ' ' :: time | none => cs) with
  | some v => pure v
  | none => Reader.fail

end Toml

end ChangelogParameters
