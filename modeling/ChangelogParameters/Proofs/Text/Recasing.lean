import ChangelogParameters.Proofs.Text.Lowercase
import ChangelogParameters.Text.Blank
import Mathlib.Data.List.Forall2

/-!
# Recased texts

A text is recased by changing the case of some of its ASCII letters.  Recasing moves no blanks and
no commas, so it goes through trimming and through the separation at commas, and it is undone by
lower-casing.

Whatever is computed from the characters of a text and does not see whether they are made small
before is the same for recased texts: `Recased.congr` is how all this is used.
-/

namespace ChangelogParameters.Text

/-- Two texts that differ at most in the case of ASCII letters. -/
def Recased (a b : String) : Prop :=
  equalIgnoringAsciiCase a b = true

instance (a b : String) : Decidable (Recased a b) :=
  inferInstanceAs (Decidable (equalIgnoringAsciiCase a b = true))

/-! ### Single characters -/

/-- No ASCII letter is blank. -/
lemma isBlank_toLower (c : Char) : isBlank c.toLower = isBlank c :=
  toLower_congr (f := isBlank) (by decide +kernel) c

/-- No ASCII letter is a comma. -/
lemma toLower_eq_comma_iff (c : Char) : c.toLower = ',' ↔ c = ',' := by
  have hcomma := toLower_congr (f := fun c => decide (c = ',')) (by decide +kernel) c
  exact decide_eq_decide.1 hcomma

/-! ### Characters of texts -/

/-- Trimming finds the same ends in both cases. -/
lemma trimChars_map_toLower (cs : List Char) :
    trimChars (cs.map Char.toLower) = (trimChars cs).map Char.toLower := by
  have hblank : isBlank ∘ Char.toLower = isBlank := funext isBlank_toLower
  simp only [trimChars, List.dropWhile_map, ← List.map_reverse, hblank]

/-- The pieces between commas are cut at the same places in both cases. -/
lemma pieces_map_toLower (cs : List Char) :
    pieces ',' (cs.map Char.toLower) = (pieces ',' cs).map (List.map Char.toLower) := by
  induction cs with
  | nil => rfl
  | cons c cs ih =>
    rw [List.map_cons, pieces, pieces, ih]
    simp only [toLower_eq_comma_iff]
    split
    case isTrue => rfl
    case isFalse => cases pieces ',' cs <;> rfl

/-- The lower case of characters does not depend on the case of the ASCII letters. -/
lemma lowerChars_map_toLower (cs : List Char) :
    lowerChars (cs.map Char.toLower) = lowerChars cs :=
  lowerAfter_map_toLower [] cs

/-! ### Texts -/

namespace Recased

variable {a b : String}

lemma refl (a : String) : Recased a a :=
  equalIgnoringAsciiCase_iff.2 rfl

lemma symm (h : Recased a b) : Recased b a :=
  equalIgnoringAsciiCase_iff.2 (equalIgnoringAsciiCase_iff.1 h).symm

lemma trans {c : String} (h : Recased a b) (h' : Recased b c) : Recased a c :=
  equalIgnoringAsciiCase_iff.2
    ((equalIgnoringAsciiCase_iff.1 h).trans (equalIgnoringAsciiCase_iff.1 h'))

/-- What does not change when all ASCII letters are made small is the same for recased texts. -/
lemma congr {α : Type} {f : List Char → α} (hf : ∀ cs, f (cs.map Char.toLower) = f cs)
    (h : Recased a b) : f a.toList = f b.toList := by
  rw [← hf a.toList, ← hf b.toList, equalIgnoringAsciiCase_iff.1 h]

/-- Trimming recased texts leaves recased texts. -/
lemma trim (h : Recased a b) : Recased (Text.trim a) (Text.trim b) := by
  refine equalIgnoringAsciiCase_iff.2 ?_
  rw [toList_trim, toList_trim, ← trimChars_map_toLower, ← trimChars_map_toLower,
    equalIgnoringAsciiCase_iff.1 h]

/-- Recased texts have the same normal form. -/
lemma lower_trim_eq (h : Recased a b) : lower (Text.trim a) = lower (Text.trim b) :=
  lower_eq_of_equalIgnoringAsciiCase h.trim

/-- The pieces of recased texts between commas are recased, one by one. -/
lemma commaSeparated (h : Recased a b) :
    List.Forall₂ Recased (Text.commaSeparated a) (Text.commaSeparated b) := by
  have hpieces : (pieces ',' a.toList).map (List.map Char.toLower) =
      (pieces ',' b.toList).map (List.map Char.toLower) := by
    rw [← pieces_map_toLower, ← pieces_map_toLower, equalIgnoringAsciiCase_iff.1 h]
  rw [← List.forall₂_eq_eq_eq, List.forall₂_map_left_iff, List.forall₂_map_right_iff] at hpieces
  rw [Text.commaSeparated, Text.commaSeparated, List.forall₂_map_left_iff,
    List.forall₂_map_right_iff]
  refine hpieces.imp ?_
  intro piece piece' hpiece
  refine equalIgnoringAsciiCase_iff.2 ?_
  rwa [String.toList_ofList, String.toList_ofList]

end Recased

/-- Recased names, one by one, have the same normal forms. -/
lemma map_lower_trim_eq {as bs : List String} (h : List.Forall₂ Recased as bs) :
    as.map (fun name => lower (trim name)) = bs.map fun name => lower (trim name) := by
  rw [← List.forall₂_eq_eq_eq, List.forall₂_map_left_iff, List.forall₂_map_right_iff]
  exact h.imp fun _ _ => Recased.lower_trim_eq

end ChangelogParameters.Text
