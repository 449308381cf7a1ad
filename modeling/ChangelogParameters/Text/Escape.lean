/-!
# Digits and escapes

What the notations for texts and numbers have in common: the values of digits, the characters
that escapes name by their code points, and putting a character in front of what was read.
-/

namespace ChangelogParameters.Text

/-! ### Digits -/

/-- The value of a digit in bases up to sixteen. -/
def digitValue? (c : Char) : Option Nat :=
  if '0' ≤ c && c ≤ '9' then some (c.toNat - '0'.toNat)
  else if 'a' ≤ c && c ≤ 'f' then some (c.toNat - 'a'.toNat + 10)
  else if 'A' ≤ c && c ≤ 'F' then some (c.toNat - 'A'.toNat + 10)
  else none

/-- Whether a character is a digit of a base. -/
def isDigitOf (base : Nat) (c : Char) : Bool :=
  match digitValue? c with
  | some d => d < base
  | none => false

/-- The number written with digits of a base. -/
def ofDigits (base : Nat) (cs : List Char) : Nat :=
  cs.foldl (fun n c => base * n + (digitValue? c).getD 0) 0

/-! ### Code points -/

/-- The number written with hexadecimal digits. -/
def hexadecimal? (cs : List Char) : Option Nat :=
  if cs.all (isDigitOf 16) then some (ofDigits 16 cs) else none

/-- The character of a code point, unless it is a surrogate or too large. -/
def charOf? (n : Nat) : Option Char :=
  if n.isValidChar then some (Char.ofNat n) else none

/-- The character whose code point is written with the given hexadecimal digits. -/
def codePoint? (digits : List Char) : Option Char :=
  (hexadecimal? digits).bind charOf?

/-! ### Putting together -/

/-- Puts a character in front of what was read. -/
def prepend (c : Option Char) (read : Option (List Char × List Char)) :
    Option (List Char × List Char) :=
  match c, read with
  | some c, some (cs, rest) => some (c :: cs, rest)
  | _, _ => none

end ChangelogParameters.Text
