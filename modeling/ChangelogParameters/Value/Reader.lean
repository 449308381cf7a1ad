import ChangelogParameters.Decimal.Scientific
import ChangelogParameters.Text.Escape
import ChangelogParameters.Text.Reader
import ChangelogParameters.Value

/-!
# Reading values

Values are read from JSON text.  An integer literal that fits 64 bits stays an integer; every
other number, minus zero among them, becomes a floating point number.
-/

namespace ChangelogParameters

namespace Value

/-- Whether a character is one of the four that may stand between tokens. -/
def isJsonSpace (c : Char) : Bool :=
  c == ' ' || c == '\t' || c == '\n' || c == '\r'

/-- Passes over the space between tokens. -/
def skipSpace : Reader Unit := Reader.skipWhile isJsonSpace

/-! ### Numbers -/

/-- Reads a run of decimal digits. -/
def digits : Reader (List Char) := Reader.takeWhile1 Char.isDigit

/-- Collects the leading digits whose number fits 64 bits.  The further digits before the point
count as powers of ten, those after it are dropped. -/
def collect (whole fraction : List Char) : Nat × Int :=
  let keep (state : Nat × Nat) (c : Char) : Nat × Nat :=
    let n := 10 * state.1 + (c.toNat - '0'.toNat)
    if state.2 = 0 && n < 18446744073709551616 then (n, 0) else (state.1, state.2 + 1)
  let (significand, dropped) := whole.foldl keep (0, 0)
  let (significand, missed) := fraction.foldl keep (significand, 0)
  (significand, (dropped : Int) - (fraction.length - missed : Nat))

/-- The number with the given parts; none if it is too large. -/
def numberOf? (negative : Bool) (whole : List Char) (fraction : Option (List Char))
    (exponent : Option Int) : Option Number :=
  let n : Int := if negative then -(Text.ofDigits 10 whole : Int) else Text.ofDigits 10 whole
  if fraction.isNone && exponent.isNone && fitsInteger n && !(negative && n == 0) then
    some (.integer n)
  else
    let (significand, scale) := collect whole (fraction.getD [])
    (Scientific.mk negative significand (scale + exponent.getD 0)).scaled?.map .real

/-- Reads the exponent of a number. -/
def exponentPart : Reader Int := do
  let _ ← Reader.satisfy fun c => c == 'e' || c == 'E'
  let sign ← Reader.optional? (Reader.satisfy fun c => c == '+' || c == '-')
  let n : Int := Text.ofDigits 10 (← digits)
  pure (if sign == some '-' then -n else n)

/-- Reads a number. -/
def readNumber : Reader Number := do
  let sign ← Reader.optional? (Reader.char '-')
  let whole ← digits
  if whole.head? == some '0' && whole.length ≠ 1 then Reader.fail
  let fraction ← Reader.optional? (do Reader.char '.'; digits)
  let exponent ← Reader.optional? exponentPart
  match numberOf? sign.isSome whole fraction exponent with
  | some n => pure n
  | none => Reader.fail

/-! ### Strings -/

/-- The character that one letter stands for after a backslash. -/
def unescape? : Char → Option Char
  | '"' => some '"'
  | '\\' => some '\\'
  | '/' => some '/'
  | 'b' => some '\x08'
  | 'f' => some '\x0c'
  | 'n' => some '\n'
  | 'r' => some '\r'
  | 't' => some '\t'
  | _ => none

/-- The characters up to the closing quote, and what comes after it. -/
def stringBody : List Char → Option (List Char × List Char)
  | [] => none
  | '"' :: rest => some ([], rest)
  | '\\' :: 'u' :: a :: b :: c :: d :: rest =>
    match Text.hexadecimal? [a, b, c, d] with
    | none => none
    | some n =>
      if 0xD800 ≤ n && n < 0xDC00 then
        match rest with
        | '\\' :: 'u' :: a' :: b' :: c' :: d' :: rest' =>
          match Text.hexadecimal? [a', b', c', d'] with
          | some m =>
            if 0xDC00 ≤ m && m < 0xE000 then
              Text.prepend (Text.charOf? (0x10000 + 0x400 * (n - 0xD800) + (m - 0xDC00)))
                (stringBody rest')
            else none
          | none => none
        | _ => none
      else Text.prepend (Text.charOf? n) (stringBody rest)
  | '\\' :: c :: rest => Text.prepend (unescape? c) (stringBody rest)
  | c :: rest => if c.toNat < 0x20 then none else Text.prepend (some c) (stringBody rest)

/-- Reads a string. -/
def readString : Reader String := do
  Reader.char '"'
  let cs ← (stringBody : Reader (List Char))
  pure (String.ofList cs)

/-! ### Values -/

/-- Reads items between brackets, with commas between them. -/
def between {α : Type} (left right : Char) (item : Reader α) : Reader (List α) := do
  Reader.char left
  skipSpace
  if (← Reader.look) == some right then
    Reader.char right
    pure []
  else
    let items ← Reader.separated (do skipSpace; let a ← item; skipSpace; pure a) (Reader.char ',')
    Reader.char right
    pure items

/-- Reads a value in which containers are nested less deeply than the bound. -/
def readValue : (bound : Nat) → Reader Value
  | 0 => Reader.fail
  | bound + 1 => do
    match ← Reader.look with
    | some '[' => return .array (← between '[' ']' (readValue bound))
    | some '\x7b' =>
      let member : Reader (String × Value) := do
        let key ← readString
        skipSpace
        Reader.char ':'
        skipSpace
        return (key, ← readValue bound)
      return ofMembers (← between '\x7b' '\x7d' member)
    | some '"' => return .string (← readString)
    | some 't' => Reader.word "true"; return .bool true
    | some 'f' => Reader.word "false"; return .bool false
    | some 'n' => Reader.word "null"; return .null
    | _ => return .number (← readNumber)

/-- How deeply containers may be nested. -/
def nestingBound : Nat := 128

/-- The value of a JSON text. -/
def parse? (s : String) : Option Value :=
  (do skipSpace; let v ← readValue nestingBound; skipSpace; pure v : Reader Value).run s

end Value

end ChangelogParameters
