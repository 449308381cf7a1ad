import ChangelogParameters.Decimal.Scientific
import ChangelogParameters.Text.Escape
import ChangelogParameters.Value
import ChangelogParameters.Yaml.Token

/-!
# Values of scalars in YAML

A scalar without quotes is null, a truth value, an integer, a floating point number, or else
the text itself.  Integers are written in base ten, or with a mark in base sixteen, eight or
two; digits with a zero in front are text.  An integer that fits 128 bits but not 64 is refused.
A tag of one of these types demands the type, with quotes or without; a local tag has no value, and
any other tag makes a text.
-/

namespace ChangelogParameters

namespace Yaml

/-! ### Integers -/

/-- The natural number written with digits of a base, at least one. -/
def natural? (base : Nat) (cs : List Char) : Option Nat :=
  if !cs.isEmpty && cs.all (Text.isDigitOf base) then some (Text.ofDigits base cs) else none

/-- Whether a text consists of a zero and further digits, a sign aside. -/
def isPaddedNumber (cs : List Char) : Bool :=
  match cs with
  | '-' :: '0' :: d :: ds => (d :: ds).all Char.isDigit
  | '+' :: '0' :: d :: ds => (d :: ds).all Char.isDigit
  | '0' :: d :: ds => (d :: ds).all Char.isDigit
  | _ => false

/-- The natural number written in a text, with the mark of its base. -/
def unsigned? : List Char → Option Nat
  | '0' :: 'x' :: ds => natural? 16 ds
  | '0' :: 'o' :: ds => natural? 8 ds
  | '0' :: 'b' :: ds => natural? 2 ds
  | ds => natural? 10 ds

/-- Whether an integer fits 128 bits, with or without a sign. -/
def fitsInteger (n : Int) : Bool :=
  -170141183460469231731687303715884105728 ≤ n && n < 340282366920938463463374607431768211456

/-- The integer written in a text, if it fits 128 bits. -/
def integer? (cs : List Char) : Option Int :=
  if isPaddedNumber cs then none
  else
    let n : Option Int := match cs with
      | '-' :: ds => (unsigned? ds).map fun n => -(n : Int)
      | '+' :: ds => (unsigned? ds).map fun n => (n : Int)
      | ds => (unsigned? ds).map fun n => (n : Int)
    n.filter fitsInteger

/-! ### Floating point numbers -/

/-- Whether a text has a minus in front, and what comes after the sign. -/
def splitSign : List Char → Bool × List Char
  | '-' :: cs => (true, cs)
  | '+' :: cs => (false, cs)
  | cs => (false, cs)

/-- The exponent written after its mark; nothing written means zero. -/
def exponent? : List Char → Option Int
  | [] => some 0
  | c :: cs =>
    if c == 'e' || c == 'E' then
      let (negative, ds) := splitSign cs
      (natural? 10 ds).map fun n => if negative then -(n : Int) else n
    else none

/-- The decimal written in a text.  Digits may be missing before or after the point, but not on
both sides. -/
def decimal? (cs : List Char) : Option Scientific :=
  let (negative, cs) := splitSign cs
  let whole := cs.takeWhile Char.isDigit
  let behind := cs.dropWhile Char.isDigit
  let (fraction, behind) := match behind with
    | '.' :: ds => (ds.takeWhile Char.isDigit, ds.dropWhile Char.isDigit)
    | ds => ([], ds)
  if whole.isEmpty && fraction.isEmpty then none
  else (exponent? behind).map fun e =>
    ⟨negative, Text.ofDigits 10 (whole ++ fraction), e - fraction.length⟩

/-- The words for infinities and for what is not a number; they stand for null. -/
def unrealWords : List String :=
  [".inf", ".Inf", ".INF", "+.inf", "+.Inf", "+.INF", "-.inf", "-.Inf", "-.INF",
    ".nan", ".NaN", ".NAN"]

/-- The floating point number written in a text. -/
def float? (s : String) : Option Value :=
  if unrealWords.contains s then some .null
  else ((decimal? s.toList).bind Scientific.nearest?).map fun x => .number (.real x)

/-! ### Plain scalars -/

/-- The words for null. -/
def nullWords : List String := ["~", "null", "Null", "NULL"]

/-- The truth value that a word stands for. -/
def truthValue? (s : String) : Option Bool :=
  if ["true", "True", "TRUE"].contains s then some true
  else if ["false", "False", "FALSE"].contains s then some false
  else none

/-- The value of an integer that fits 64 bits. -/
def integerValue? (n : Int) : Option Value :=
  if Value.fitsInteger n then some (.ofInt n) else none

/-- The value of a scalar without quotes. -/
def resolve? (s : String) : Option Value :=
  if s == "" || nullWords.contains s then some .null
  else match truthValue? s with
    | some b => some (.bool b)
    | none =>
      match integer? s.toList with
      | some n => integerValue? n
      | none =>
        if isPaddedNumber s.toList then some (.string s)
        else some ((float? s).getD (.string s))

/-! ### Tags -/

/-- The tag of a type that every document knows. -/
def coreTag (name : String) : Tag := ("tag:yaml.org,2002:" ++ name).toUTF8.toList

/-- Whether a tag begins as a local one does. -/
def beginsLocal (tag : Tag) : Bool := tag.head? == some (byteOf '!')

/-- Whether a tag is a local one; its bytes are a text. -/
def isLocal (tag : Tag) : Bool := beginsLocal tag && (String.fromUTF8? ⟨tag.toArray⟩).isSome

/-- The value of a scalar without a tag. -/
def untagged? (quoted : Bool) (s : String) : Option Value :=
  if quoted then some (.string s) else resolve? s

/-- The value of a scalar with a tag. -/
def tagged? (tag : Tag) (quoted : Bool) (s : String) : Option Value :=
  if isLocal tag then none
  else if tag == coreTag "bool" then (truthValue? s).map .bool
  else if tag == coreTag "int" then (integer? s.toList).bind integerValue?
  else if tag == coreTag "float" then float? s
  else if tag == coreTag "null" then if nullWords.contains s then some .null else none
  -- what begins as a local tag but is no text does not count
  else if beginsLocal tag then untagged? quoted s
  else some (.string s)

/-- The value of a scalar. -/
def scalarValue? : Option Tag → Bool → String → Option Value
  | none => untagged?
  | some tag => tagged? tag

end Yaml

end ChangelogParameters
