import ChangelogParameters.Decimal.Shortest
import ChangelogParameters.Value

/-!
# The text of values

Values are written in JSON, either compactly or with one member or item a line.  A number that
is not an integer is written with the fewest digits that read back.  Where a value is
substituted into a text, a string stands for itself and everything else for its compact JSON
text.
-/

namespace ChangelogParameters

/-! ### Numbers -/

/-- How decimals are laid out: which are written without an exponent. -/
structure DecimalLayout where
  /-- The smallest exponent of the first digit at which no exponent is written. -/
  plainFrom : Int
  /-- The largest exponent of the first digit at which no exponent is written. -/
  plainTo : Int
deriving Repr

/-- Numbers from a hundred thousandth up to sixteen digits before the point are written
plainly. -/
def DecimalLayout.json : DecimalLayout := ⟨-5, 15⟩

/-- A text of zeros. -/
def zeros (n : Nat) : List Char := List.replicate n '0'

/-- The text of a decimal: plain with at least one digit after the point, or one digit before
the point and a signed exponent. -/
def ShortDecimal.text (d : ShortDecimal) (layout : DecimalLayout) : String :=
  let digits := Nat.toDigits 10 d.digits
  let first : Int := d.exponent + digits.length - 1
  String.ofList <|
    if layout.plainFrom ≤ first && first ≤ layout.plainTo then
      if 0 ≤ d.exponent then digits ++ zeros d.exponent.toNat ++ ['.', '0']
      else if 0 ≤ first then
        digits.take (first.toNat + 1) ++ '.' :: digits.drop (first.toNat + 1)
      else '0' :: '.' :: zeros (-first - 1).toNat ++ digits
    else
      let fraction := digits.drop 1
      digits.take 1 ++ (if fraction.isEmpty then [] else '.' :: fraction) ++
        'e' :: (if first < 0 then '-' else '+') :: Nat.toDigits 10 first.natAbs

/-- The text of an integer. -/
def integerText (n : Int) : String :=
  String.ofList ((if n < 0 then ['-'] else []) ++ Nat.toDigits 10 n.natAbs)

/-- The text of a number. -/
def Number.text : Number → String
  | .integer n => integerText n
  | .real x => (if x.negative then "-" else "") ++ x.shortest.text .json

/-! ### Strings -/

/-- A character as it is written between quotes: quotes, backslashes and control characters are
escaped, and nothing else. -/
def escapeChar (c : Char) : List Char :=
  match c with
  | '"' => ['\\', '"']
  | '\\' => ['\\', '\\']
  | '\x08' => ['\\', 'b']
  | '\x0c' => ['\\', 'f']
  | '\n' => ['\\', 'n']
  | '\r' => ['\\', 'r']
  | '\t' => ['\\', 't']
  | c =>
    if c.toNat < 0x10 then ['\\', 'u', '0', '0', '0'] ++ Nat.toDigits 16 c.toNat
    else if c.toNat < 0x20 then ['\\', 'u', '0', '0'] ++ Nat.toDigits 16 c.toNat
    else [c]

/-- A text between quotes. -/
def quoted (s : String) : String :=
  String.ofList ('"' :: s.toList.flatMap escapeChar ++ ['"'])

namespace Value

/-! ### Compact text -/

mutual

/-- The JSON text of a value, without spaces. -/
def compact : Value → String
  | null => "null"
  | bool true => "true"
  | bool false => "false"
  | number n => n.text
  | string s => quoted s
  | array items => "[" ++ ",".intercalate (compactItems items) ++ "]"
  | object members => "\x7b" ++ ",".intercalate (compactMembers members) ++ "\x7d"

/-- The JSON texts of the items of an array. -/
def compactItems : List Value → List String
  | [] => []
  | v :: vs => v.compact :: compactItems vs

/-- The JSON texts of the members of an object. -/
def compactMembers : List (String × Value) → List String
  | [] => []
  | (key, v) :: rest => (quoted key ++ ":" ++ v.compact) :: compactMembers rest

end

/-! ### Indented text -/

/-- A new line indented to a depth of two spaces a level. -/
def newLine (depth : Nat) : String :=
  String.ofList ('\n' :: List.replicate (2 * depth) ' ')

/-- Texts on lines of their own between two brackets, which touch if there are none. -/
def bracketed (left right : String) (depth : Nat) : List String → String
  | [] => left ++ right
  | lines =>
    left ++ newLine (depth + 1) ++ ("," ++ newLine (depth + 1)).intercalate lines ++
      newLine depth ++ right

mutual

/-- The JSON text of a value at a depth, with a line for every item and member. -/
def indented (depth : Nat) : Value → String
  | array items => bracketed "[" "]" depth (indentedItems (depth + 1) items)
  | object members => bracketed "\x7b" "\x7d" depth (indentedMembers (depth + 1) members)
  | v => v.compact

/-- The indented texts of the items of an array. -/
def indentedItems (depth : Nat) : List Value → List String
  | [] => []
  | v :: vs => v.indented depth :: indentedItems depth vs

/-- The indented texts of the members of an object. -/
def indentedMembers (depth : Nat) : List (String × Value) → List String
  | [] => []
  | (key, v) :: rest =>
    (quoted key ++ ": " ++ v.indented depth) :: indentedMembers depth rest

end

/-! ### Substitution text -/

/-- The text that stands for a value in a larger text. -/
def render : Value → String
  | string s => s
  | v => v.compact

end Value

end ChangelogParameters
