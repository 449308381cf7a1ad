import ChangelogParameters.Text.Lowercase

/-!
# Keys

Parameters are found by their keys, whatever the case of the letters.  A key that consists of
ASCII characters is compared letter by letter; only a key with other characters is compared by
its full lower case.
-/

namespace ChangelogParameters

/-- Whether a registered key is the one asked for. -/
def keyMatches (key asked : String) : Bool :=
  Text.equalIgnoringAsciiCase key asked ||
    (!Text.isAscii key && Text.lower key == Text.lower asked)

/-- Every key is found by its own spelling. -/
@[simp] theorem keyMatches_self (key : String) : keyMatches key key = true := by
  simp [keyMatches, Text.equalIgnoringAsciiCase]

end ChangelogParameters
