/-!
# Blank characters

A character is blank when the Unicode property `White_Space` holds of it.  Trimming
removes the blank characters at both ends of a text and leaves those inside it alone.
-/

namespace ChangelogParameters.Text

/-! ### The property -/

/-- The characters with the Unicode property `White_Space`. -/
def isBlank (c : Char) : Bool :=
  let n := c.toNat
  (0x9 ≤ n && n ≤ 0xD) || n == 0x20 || n == 0x85 || n == 0xA0 || n == 0x1680 ||
    (0x2000 ≤ n && n ≤ 0x200A) || n == 0x2028 || n == 0x2029 || n == 0x202F ||
    n == 0x205F || n == 0x3000

/-! ### Trimming -/

/-- The characters left when the blank ones at both ends are dropped. -/
def trimChars (cs : List Char) : List Char :=
  ((cs.dropWhile isBlank).reverse.dropWhile isBlank).reverse

/-- The text without the blank characters at its ends. -/
def trim (s : String) : String :=
  String.ofList (trimChars s.toList)

/-- A text is blank when nothing is left of it after trimming. -/
def isBlankText (s : String) : Bool :=
  s.toList.all isBlank

@[simp] theorem toList_trim (s : String) : (trim s).toList = trimChars s.toList := by
  simp [trim]

/-! ### Pieces between separators -/

/-- The pieces of a text between the occurrences of a separator; there is always one more
piece than there are separators. -/
def pieces (separator : Char) : List Char → List (List Char)
  | [] => [[]]
  | c :: cs =>
    if c = separator then [] :: pieces separator cs
    else match pieces separator cs with
      | piece :: rest => (c :: piece) :: rest
      | [] => [[c]]

/-- The pieces of a comma separated list, blank ones included. -/
def commaSeparated (s : String) : List String :=
  (pieces ',' s.toList).map String.ofList

theorem pieces_ne_nil (separator : Char) (cs : List Char) : pieces separator cs ≠ [] := by
  cases cs with
  | nil => simp [pieces]
  | cons c cs =>
    unfold pieces
    split
    · simp
    · split <;> simp

end ChangelogParameters.Text
