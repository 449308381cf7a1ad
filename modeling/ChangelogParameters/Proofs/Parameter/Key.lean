import ChangelogParameters.Parameter.Key
import ChangelogParameters.Proofs.Text.Lowered
import Mathlib.Tactic.Tauto

/-!
# Keys and lower case

Whether a key is the one asked for is not a symmetric relation: only the registered key decides
which comparison is made.  But keys that are found under one spelling always have its lower case,
so they belong to one class.
-/

namespace ChangelogParameters

/-- A key that is found has the lower case of what was asked for. -/
theorem lower_eq_of_keyMatches {key asked : String} (h : keyMatches key asked = true) :
    Text.lower key = Text.lower asked := by
  have hcases : Text.equalIgnoringAsciiCase key asked = true ∨
      Text.isAscii key = false ∧ Text.lower key = Text.lower asked := by
    simpa [keyMatches] using h
  rcases hcases with hascii | ⟨-, hlower⟩
  · exact Text.lower_eq_of_equalIgnoringAsciiCase hascii
  · exact hlower

/-- A key with the lower case of what was asked for is found, unless it is ASCII and a Kelvin sign
was asked for. -/
lemma keyMatches_of_lower_eq {key asked : String} (h : Text.lower key = Text.lower asked)
    (hkelvin : ¬ (Text.isAscii key = true ∧ Text.kelvin ∈ asked.toList)) :
    keyMatches key asked = true := by
  rw [keyMatches, Bool.or_eq_true]
  by_cases hascii : Text.isAscii key = true
  · left
    have hasked := Text.isAscii_of_lower_eq hascii h fun hmem => hkelvin ⟨hascii, hmem⟩
    exact Text.equalIgnoringAsciiCase_of_isAscii hascii hasked h
  · right
    simp [hascii, h]

/-- An ASCII key is not found by a text with a Kelvin sign. -/
lemma not_kelvin_of_keyMatches {key asked : String} (h : keyMatches key asked = true) :
    ¬ (Text.isAscii key = true ∧ Text.kelvin ∈ asked.toList) := by
  rintro ⟨hascii, hkelvin⟩
  have hequal : Text.equalIgnoringAsciiCase key asked = true := by
    simpa [keyMatches, hascii] using h
  have hasked : Text.isAscii asked = true :=
    (Text.isAscii_eq_of_equalIgnoringAsciiCase hequal).symm.trans hascii
  exact absurd (Text.isAscii_iff.1 hasked _ hkelvin) (by decide)

/-- **When a key is found.**  A key is found exactly if it has the lower case of what was asked for,
with one exception: an ASCII key is not found by a text with a Kelvin sign, which is lower-cased to
an ASCII letter.  The exception is all that keeps the relation from being symmetric. -/
theorem keyMatches_iff (key asked : String) :
    (keyMatches key asked = true ↔
      Text.lower key = Text.lower asked ∧
        ¬ (Text.isAscii key = true ∧ Text.kelvin ∈ asked.toList)) ∧
    (keyMatches key asked = keyMatches asked key ↔
      ¬ (Text.lower key = Text.lower asked ∧
        (Text.isAscii key = true ∧ Text.kelvin ∈ asked.toList ∨
          Text.isAscii asked = true ∧ Text.kelvin ∈ key.toList))) := by
  have hiff : ∀ key asked : String, keyMatches key asked = true ↔
      Text.lower key = Text.lower asked ∧
        ¬ (Text.isAscii key = true ∧ Text.kelvin ∈ asked.toList) :=
    fun key asked => ⟨fun h => ⟨lower_eq_of_keyMatches h, not_kelvin_of_keyMatches h⟩,
      fun h => keyMatches_of_lower_eq h.1 h.2⟩
  refine ⟨hiff key asked, ?_⟩
  rw [Bool.eq_iff_iff, hiff key asked, hiff asked key, eq_comm (a := Text.lower asked)]
  have hkelvin : ∀ s : String, Text.isAscii s = true → Text.kelvin ∉ s.toList :=
    fun s hs hmem => absurd (Text.isAscii_iff.1 hs _ hmem) (by decide)
  -- Not both exceptions can hold at once, since an ASCII text has no Kelvin sign.
  have hasked := hkelvin asked
  tauto

/-- The key of a Kelvin sign is found by a small letter, which as a key is not found by the sign,
though both have the same lower case. -/
theorem not_keyMatches_comm :
    ¬ ∀ a b : String, keyMatches a b = keyMatches b a ∧
      (keyMatches a b = true ↔ Text.lower a = Text.lower b) := by
  intro h
  have hletter : keyMatches "k" "\u212A" = false := by decide +kernel
  have hsign : keyMatches "\u212A" "k" = true := by decide +kernel
  have hcomm := (h "k" "\u212A").1
  rw [hletter, hsign] at hcomm
  exact absurd hcomm (by decide)

end ChangelogParameters
