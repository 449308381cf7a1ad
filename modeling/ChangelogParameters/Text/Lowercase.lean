import ChangelogParameters.Text.CaseTable

/-!
# Lower-casing

The full Unicode lower case of a text.  Every character is mapped on its own, with one
exception: a capital sigma becomes the final small sigma at the end of a word, and the medial
one everywhere else.  A sigma ends a word when, case ignorable characters aside, a cased
character stands before it and none after it.
-/

namespace ChangelogParameters.Text

/-! ### Single characters -/

/-- Whether one of the intervals holds the character. -/
def inIntervals (intervals : List (Nat × Nat)) (c : Char) : Bool :=
  intervals.any fun (first, last) => first ≤ c.toNat && c.toNat ≤ last

/-- The Unicode property `Cased`. -/
def isCased (c : Char) : Bool :=
  inIntervals casedIntervals c

/-- The Unicode property `Case_Ignorable`. -/
def isCaseIgnorable (c : Char) : Bool :=
  inIntervals caseIgnorableIntervals c

/-- The run that says what the lower case of a code point is. -/
def lowerCaseRun? (n : Nat) : Option CaseRun :=
  lowerCaseRuns.find? (·.covers n)

/-- The lower case of a character that stands alone: itself, one other character, or, for the
capital I with a dot, a small i and a combining dot. -/
def lowerChar (c : Char) : List Char :=
  if c.toNat < 0x80 then [c.toLower]
  else if c.toNat = 0x130 then ['i', Char.ofNat 0x307]
  else match lowerCaseRun? c.toNat with
    | some run => [Char.ofNat (c.toNat + run.offset).toNat]
    | none => [c]

/-! ### Texts -/

/-- Whether the first character that is not case ignorable is cased. -/
def startsCased (cs : List Char) : Bool :=
  match cs.dropWhile isCaseIgnorable with
  | c :: _ => isCased c
  | [] => false

/-- The small sigma for a capital one between `before`, read backwards, and `after`. -/
def smallSigma (before after : List Char) : Char :=
  if startsCased before && !startsCased after then 'ς' else 'σ'

/-- The lower case of a text that continues `before`, which is given in reverse. -/
def lowerAfter (before : List Char) : List Char → List Char
  | [] => []
  | c :: cs =>
    (if c = 'Σ' then [smallSigma before cs] else lowerChar c) ++ lowerAfter (c :: before) cs

/-- The lower case of a list of characters. -/
def lowerChars (cs : List Char) : List Char :=
  lowerAfter [] cs

/-- The full Unicode lower case of a text. -/
def lower (s : String) : String :=
  String.ofList (lowerChars s.toList)

@[simp] theorem lowerChars_nil : lowerChars [] = [] := rfl

@[simp] theorem toList_lower (s : String) : (lower s).toList = lowerChars s.toList := by
  simp [lower]

/-! ### ASCII texts -/

/-- Whether every character is an ASCII character. -/
def isAscii (s : String) : Bool :=
  s.toList.all fun c => c.toNat < 0x80

/-- Equality of texts that forgets the case of the ASCII letters, and of no others. -/
def equalIgnoringAsciiCase (a b : String) : Bool :=
  a.toList.map Char.toLower == b.toList.map Char.toLower

end ChangelogParameters.Text
