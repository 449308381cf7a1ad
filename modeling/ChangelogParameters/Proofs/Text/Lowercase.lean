import ChangelogParameters.Text.Lowercase
import Mathlib.Tactic.Lemma

/-!
# Lower case and ASCII letters

Two texts that differ only in the case of ASCII letters have the same lower case.  For a single
letter this is clear; but the lower case of a capital sigma depends on its neighbours, so these
must count as cased, or be ignored, whatever their own case is.
-/

namespace ChangelogParameters.Text

/-! ### Single letters -/

/-- What holds of the ASCII capitals and of all characters that are no ASCII capitals holds of all
characters. -/
lemma forall_of_capitals {p : Char → Prop} (hcapital : ∀ n : Fin 26, p (Char.ofNat (0x41 + n)))
    (hother : ∀ c : Char, c.toLower = c → p c) (c : Char) : p c := by
  by_cases h : c.val ≥ 'A'.val ∧ c.val ≤ 'Z'.val
  · have hbounds : 0x41 ≤ c.toNat ∧ c.toNat ≤ 0x5A := by
      simpa [UInt32.le_iff_toNat_le, ← Char.toNat_val] using h
    have hn := hcapital ⟨c.toNat - 0x41, by omega⟩
    have hc : Char.ofNat (0x41 + (c.toNat - 0x41)) = c := by
      rw [Nat.add_sub_cancel' hbounds.1, Char.ofNat_toNat]
    simpa only [hc] using hn
  · exact hother c (dif_neg h)

/-- What has one value on the ASCII capitals and on their small letters does not see the case of any
character. -/
lemma toLower_congr {α : Type} {f : Char → α}
    (hcapital : ∀ n : Fin 26, f (Char.ofNat (0x41 + n)).toLower = f (Char.ofNat (0x41 + n)))
    (c : Char) : f c.toLower = f c := by
  refine forall_of_capitals (p := fun c => f c.toLower = f c) hcapital ?_ c
  intro c hc
  rw [hc]

/-- An ASCII letter is cased in either case. -/
lemma isCased_toLower (c : Char) : isCased c.toLower = isCased c :=
  toLower_congr (f := isCased) (by decide +kernel) c

/-- An ASCII letter is not ignored in either case. -/
lemma isCaseIgnorable_toLower (c : Char) : isCaseIgnorable c.toLower = isCaseIgnorable c :=
  toLower_congr (f := isCaseIgnorable) (by decide +kernel) c

/-- Both cases of an ASCII letter have the same lower case. -/
lemma lowerChar_toLower (c : Char) : lowerChar c.toLower = lowerChar c :=
  toLower_congr (f := lowerChar) (by decide +kernel) c

/-- No ASCII letter is a capital sigma. -/
lemma toLower_eq_sigma_iff (c : Char) : c.toLower = 'Σ' ↔ c = 'Σ' := by
  have hsigma := toLower_congr (f := fun c => decide (c = 'Σ')) (by decide +kernel) c
  exact decide_eq_decide.1 hsigma

/-- Both cases of an ASCII letter are ASCII characters. -/
lemma toLower_lt_iff (c : Char) : c.toLower.toNat < 0x80 ↔ c.toNat < 0x80 := by
  have hascii := toLower_congr (f := fun c => decide (c.toNat < 0x80)) (by decide +kernel) c
  exact decide_eq_decide.1 hascii

/-! ### Texts -/

/-- Whether a text begins cased does not depend on the case of its ASCII letters. -/
lemma startsCased_map_toLower (cs : List Char) :
    startsCased (cs.map Char.toLower) = startsCased cs := by
  have hignorable : isCaseIgnorable ∘ Char.toLower = isCaseIgnorable :=
    funext isCaseIgnorable_toLower
  unfold startsCased
  rw [List.dropWhile_map, hignorable]
  cases cs.dropWhile isCaseIgnorable with
  | nil => rfl
  | cons c cs => exact isCased_toLower c

/-- What a capital sigma becomes does not depend on the case of the ASCII letters around it. -/
lemma smallSigma_map_toLower (before after : List Char) :
    smallSigma (before.map Char.toLower) (after.map Char.toLower) = smallSigma before after := by
  rw [smallSigma, smallSigma, startsCased_map_toLower, startsCased_map_toLower]

/-- The lower case of a text does not depend on the case of its ASCII letters. -/
lemma lowerAfter_map_toLower (before cs : List Char) :
    lowerAfter (before.map Char.toLower) (cs.map Char.toLower) = lowerAfter before cs := by
  induction cs generalizing before with
  | nil => rfl
  | cons c cs ih =>
    have hrest := ih (c :: before)
    rw [List.map_cons] at hrest
    rw [List.map_cons, lowerAfter, lowerAfter, hrest, smallSigma_map_toLower, lowerChar_toLower]
    simp only [toLower_eq_sigma_iff]

/-- Texts differ only in the case of ASCII letters if they become equal when all ASCII letters are
small. -/
lemma equalIgnoringAsciiCase_iff {a b : String} :
    equalIgnoringAsciiCase a b = true ↔ a.toList.map Char.toLower = b.toList.map Char.toLower :=
  beq_iff_eq

/-- Texts that differ only in the case of ASCII letters have the same lower case. -/
theorem lower_eq_of_equalIgnoringAsciiCase {a b : String}
    (h : equalIgnoringAsciiCase a b = true) : lower a = lower b := by
  have hmap := equalIgnoringAsciiCase_iff.1 h
  have hlower : ∀ s : String, lowerChars (s.toList.map Char.toLower) = lowerChars s.toList :=
    fun s => lowerAfter_map_toLower [] s.toList
  rw [lower, lower, ← hlower a, ← hlower b, hmap]

/-- Of texts that differ only in the case of ASCII letters, both are ASCII or none is. -/
lemma isAscii_eq_of_equalIgnoringAsciiCase {a b : String}
    (h : equalIgnoringAsciiCase a b = true) : isAscii a = isAscii b := by
  have hmap := equalIgnoringAsciiCase_iff.1 h
  have hascii : ∀ s : String,
      isAscii s = (s.toList.map Char.toLower).all fun c => c.toNat < 0x80 := by
    intro s
    simp only [isAscii, List.all_map, Function.comp_def, toLower_lt_iff]
  rw [hascii a, hascii b, hmap]

end ChangelogParameters.Text
