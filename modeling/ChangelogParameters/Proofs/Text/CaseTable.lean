import ChangelogParameters.Proofs.Text.Lowercase
import ChangelogParameters.Text.Blank

/-!
# The lower case of single characters

What the case table maps to is lower case itself.  A run of the table moves an interval of code
points by one distance, so two facts about intervals are enough: the interval that a run moves to
is met by no run, and it lies in one of a few blocks of code points in which there are no blanks,
no capital I with a dot and no surrogates.  Both are checked run by run, never character by
character.

`isLower_of_mem_lowerChar` and `lowerChar_placed` say what follows for characters.
-/

namespace ChangelogParameters.Text

/-! ### Runs -/

namespace CaseRun

/-- The lower case of a code point of the run. -/
def lower (run : CaseRun) (n : Nat) : Nat :=
  (n + run.offset).toNat

/-- Whether the code points that a run moves to are outside another run: before it, behind it, or
between its code points. -/
def clears (run other : CaseRun) : Bool :=
  Nat.blt (run.lower run.last) other.first || Nat.blt other.last (run.lower run.first) ||
    ((run.step == 2 || run.first == run.last) && other.step == 2 &&
      (run.lower run.first + other.first) % 2 == 1)

/-- Whether the lower case of a run is not cut off at zero. -/
def reaches (run : CaseRun) : Bool :=
  decide (0 ≤ run.first + run.offset)

/-- What a run moves to is not covered by a run that it clears. -/
lemma covers_lower_eq_false {run other : CaseRun} {n : Nat} (hreaches : run.reaches = true)
    (hclears : run.clears other = true) (hn : run.covers n = true) :
    other.covers (run.lower n) = false := by
  have hbounds : run.first ≤ n ∧ n ≤ run.last ∧ (n - run.first) % run.step = 0 := by
    simpa [covers, and_assoc] using hn
  have hcut : 0 ≤ (run.first : Int) + run.offset := of_decide_eq_true hreaches
  obtain ⟨hfirst, hlast, hstep⟩ := hbounds
  rw [Bool.eq_false_iff]
  intro hother
  have hother' : other.first ≤ run.lower n ∧ run.lower n ≤ other.last ∧
      (run.lower n - other.first) % other.step = 0 := by
    simpa [covers, and_assoc] using hother
  obtain ⟨hfirst', hlast', hstep'⟩ := hother'
  simp only [clears, Bool.or_eq_true, Bool.and_eq_true, beq_iff_eq, Nat.blt_eq] at hclears
  unfold lower at hclears hfirst' hlast' hstep'
  rcases hclears with (hbefore | hbehind) | ⟨⟨hsparse, hother⟩, hodd⟩
  · omega
  · omega
  · -- The other run takes every second code point, and what is moved are the ones between.
    rw [hother] at hstep'
    rcases hsparse with htwo | hsingle
    · rw [htwo] at hstep
      omega
    · omega

end CaseRun

set_option maxRecDepth 4000 in
/-- No run of the table moves a code point to where a run covers it. -/
lemma lowerCaseRuns_clear :
    (lowerCaseRuns.all fun run => run.reaches && lowerCaseRuns.all run.clears) = true := by
  decide +kernel

/-- The run that is found for a code point is in the table and covers it. -/
lemma mem_and_covers_of_lowerCaseRun? {n : Nat} {run : CaseRun} (h : lowerCaseRun? n = some run) :
    run ∈ lowerCaseRuns ∧ run.covers n = true := by
  rw [lowerCaseRun?] at h
  have hcovers := List.find?_some h
  exact ⟨List.mem_of_find?_eq_some h, hcovers⟩

/-- The lower case of a code point is in no run of the table. -/
lemma lowerCaseRun?_lower {n : Nat} {run : CaseRun} (h : lowerCaseRun? n = some run) :
    lowerCaseRun? (run.lower n) = none := by
  obtain ⟨hmem, hcovers⟩ := mem_and_covers_of_lowerCaseRun? h
  have htable := List.all_eq_true.1 lowerCaseRuns_clear run hmem
  obtain ⟨hreaches, hclears⟩ := Bool.and_eq_true_iff.1 htable
  rw [lowerCaseRun?, List.find?_eq_none]
  intro other hother
  have hclear := List.all_eq_true.1 hclears other hother
  have hfalse := CaseRun.covers_lower_eq_false hreaches hclear hcovers
  simp [hfalse]

/-! ### Blocks -/

/-- Blocks of code points that hold no blank character, no delimiter or capital letter of ASCII, no
capital I with a dot and no surrogate. -/
def letterBlocks : List (Nat × Nat) :=
  [(0x61, 0x7A), (0xA1, 0x12F), (0x131, 0x167F), (0x1681, 0x1FFF), (0x2060, 0x2FFF),
    (0x3001, 0xD7FF), (0xE000, 0x10FFFF)]

/-- A code point in one of the blocks. -/
def InLetterBlock (n : Nat) : Prop :=
  ∃ block ∈ letterBlocks, block.1 ≤ n ∧ n ≤ block.2

instance (n : Nat) : Decidable (InLetterBlock n) :=
  inferInstanceAs (Decidable (∃ block ∈ letterBlocks, block.1 ≤ n ∧ n ≤ block.2))

lemma inLetterBlock_iff {n : Nat} :
    InLetterBlock n ↔ 0x61 ≤ n ∧ n ≤ 0x7A ∨ 0xA1 ≤ n ∧ n ≤ 0x12F ∨ 0x131 ≤ n ∧ n ≤ 0x167F ∨
      0x1681 ≤ n ∧ n ≤ 0x1FFF ∨ 0x2060 ≤ n ∧ n ≤ 0x2FFF ∨ 0x3001 ≤ n ∧ n ≤ 0xD7FF ∨
      0xE000 ≤ n ∧ n ≤ 0x10FFFF := by
  simp [InLetterBlock, letterBlocks]

/-- Every run of the table moves to one of the blocks. -/
lemma lowerCaseRuns_inBlocks :
    (lowerCaseRuns.all fun run => letterBlocks.any fun block =>
      Nat.ble block.1 (run.lower run.first) && Nat.ble (run.lower run.last) block.2) = true := by
  decide +kernel

/-- The lower case of a code point is in one of the blocks. -/
lemma inLetterBlock_lower {n : Nat} {run : CaseRun} (h : lowerCaseRun? n = some run) :
    InLetterBlock (run.lower n) := by
  obtain ⟨hmem, hcovers⟩ := mem_and_covers_of_lowerCaseRun? h
  have hbounds : run.first ≤ n ∧ n ≤ run.last ∧ (n - run.first) % run.step = 0 := by
    simpa [CaseRun.covers, and_assoc] using hcovers
  obtain ⟨hfirst, hlast, -⟩ := hbounds
  have htable := List.all_eq_true.1 lowerCaseRuns_inBlocks run hmem
  obtain ⟨block, hblock, hinside⟩ := List.any_eq_true.1 htable
  simp only [Bool.and_eq_true, Nat.ble_eq, CaseRun.lower] at hinside
  refine ⟨block, hblock, ?_, ?_⟩
  · unfold CaseRun.lower
    omega
  · unfold CaseRun.lower
    omega

/-- A code point of the blocks is that of a character. -/
lemma toNat_ofNat {n : Nat} (h : InLetterBlock n) : (Char.ofNat n).toNat = n := by
  have hvalid : n.isValidChar := by
    rw [inLetterBlock_iff] at h
    unfold Nat.isValidChar
    omega
  rw [Char.ofNat, dif_pos hvalid]
  rfl

/-- There are no blanks in the blocks. -/
lemma isBlank_of_inLetterBlock {c : Char} (h : InLetterBlock c.toNat) : isBlank c = false := by
  rw [inLetterBlock_iff] at h
  simp only [isBlank, Bool.or_eq_false_iff, Bool.and_eq_false_iff, decide_eq_false_iff_not,
    beq_eq_false_iff_ne, Nat.not_le]
  omega

/-! ### Characters -/

/-- A character that lower-casing leaves alone. -/
def IsLower (c : Char) : Prop :=
  lowerChar c = [c] ∧ c ≠ 'Σ'

instance (c : Char) : Decidable (IsLower c) :=
  inferInstanceAs (Decidable (lowerChar c = [c] ∧ c ≠ 'Σ'))

/-- The capital sigma is in a run of the table. -/
lemma lowerCaseRun?_sigma : lowerCaseRun? 'Σ'.toNat ≠ none := by
  decide +kernel

/-- A character of the blocks that is in no run of the table is lower case. -/
lemma isLower_of_inLetterBlock {c : Char} (hblock : InLetterBlock c.toNat)
    (hrun : lowerCaseRun? c.toNat = none) : IsLower c := by
  rw [inLetterBlock_iff] at hblock
  constructor
  · unfold lowerChar
    split
    case isTrue hascii =>
      have hsmall : 'Z'.toNat < c.toNat := by
        have hz : 'Z'.toNat = 0x5A := rfl
        omega
      have hnot : ¬ (c.val ≥ 'A'.val ∧ c.val ≤ 'Z'.val) := by
        intro hcapital
        have hle := UInt32.le_iff_toNat_le.1 hcapital.2
        exact absurd hle (Nat.not_le.2 hsmall)
      have hsame : c.toLower = c := dif_neg hnot
      rw [hsame]
    case isFalse =>
      rw [if_neg (by omega), hrun]
  · rintro rfl
    exact lowerCaseRun?_sigma hrun

/-- What a character is mapped to is the character itself, or lies in the blocks. -/
lemma lowerChar_placed (c : Char) :
    lowerChar c = [c] ∨ ∀ d ∈ lowerChar c, InLetterBlock d.toNat := by
  refine forall_of_capitals (p := fun c => lowerChar c = [c] ∨
    ∀ d ∈ lowerChar c, InLetterBlock d.toNat) ?_ ?_ c
  · have hcapitals : ∀ n : Fin 26, ((lowerChar (Char.ofNat (0x41 + n))).all fun d =>
        decide (InLetterBlock d.toNat)) = true := by
      decide +kernel
    intro n
    right
    intro d hd
    exact of_decide_eq_true (List.all_eq_true.1 (hcapitals n) d hd)
  · intro c hc
    unfold lowerChar
    split
    case isTrue =>
      left
      rw [hc]
    case isFalse =>
      split
      case isTrue =>
        right
        exact List.forall_mem_cons.2 ⟨by decide, List.forall_mem_singleton.2 (by decide)⟩
      case isFalse =>
        split
        case h_1 run hrun =>
          right
          intro d hd
          have hplaced := inLetterBlock_lower hrun
          rw [List.mem_singleton.1 hd]
          change InLetterBlock (Char.ofNat (run.lower c.toNat)).toNat
          rwa [toNat_ofNat hplaced]
        case h_2 =>
          left
          rfl

/-- What a character is mapped to is lower case. -/
lemma isLower_of_mem_lowerChar {c d : Char} (h : d ∈ lowerChar c) : IsLower d := by
  revert d
  refine forall_of_capitals (p := fun c => ∀ {d}, d ∈ lowerChar c → IsLower d) ?_ ?_ c
  · have hcapitals : ∀ n : Fin 26,
        ((lowerChar (Char.ofNat (0x41 + n))).all fun d => decide (IsLower d)) = true := by
      decide +kernel
    intro n d hd
    exact of_decide_eq_true (List.all_eq_true.1 (hcapitals n) d hd)
  · intro c hc d h
    unfold lowerChar at h
    split at h
    case isTrue hascii =>
      obtain rfl : d = c := by simpa [hc] using h
      constructor
      · rw [lowerChar, if_pos hascii, hc]
      · rintro rfl
        exact absurd hascii (by decide)
    case isFalse hascii =>
      split at h
      case isTrue =>
        have hcases : d = 'i' ∨ d = Char.ofNat 0x307 := by simpa using h
        rcases hcases with rfl | rfl
        · decide +kernel
        · decide +kernel
      case isFalse hdotted =>
        split at h
        case h_1 run hrun =>
          have hplaced := inLetterBlock_lower hrun
          have hd : d.toNat = run.lower c.toNat := by
            rw [List.mem_singleton.1 h]
            exact toNat_ofNat hplaced
          refine isLower_of_inLetterBlock ?_ ?_
          · rwa [hd]
          · rw [hd]
            exact lowerCaseRun?_lower hrun
        case h_2 hrun =>
          obtain rfl : d = c := List.mem_singleton.1 h
          constructor
          · rw [lowerChar, if_neg hascii, if_neg hdotted, hrun]
          · rintro rfl
            exact lowerCaseRun?_sigma hrun

/-! ### ASCII characters -/

/-- The Kelvin sign. -/
def kelvin : Char := Char.ofNat 0x212A

/-- A run outside ASCII does not move to ASCII, the one for the Kelvin sign apart. -/
lemma lowerCaseRuns_ascii :
    (lowerCaseRuns.all fun run => Nat.blt run.last 0x80 ||
      (run.first == kelvin.toNat && run.last == kelvin.toNat) ||
      Nat.ble 0x80 (run.lower run.first)) = true := by
  decide +kernel

/-- Outside ASCII, only the Kelvin sign is in a run that moves it to ASCII. -/
lemma eq_kelvin_of_lowerCaseRun? {c : Char} {run : CaseRun} (h : lowerCaseRun? c.toNat = some run)
    (hascii : ¬ c.toNat < 0x80) (hlower : run.lower c.toNat < 0x80) : c = kelvin := by
  obtain ⟨hmem, hcovers⟩ := mem_and_covers_of_lowerCaseRun? h
  have hbounds : run.first ≤ c.toNat ∧ c.toNat ≤ run.last ∧
      (c.toNat - run.first) % run.step = 0 := by
    simpa [CaseRun.covers, and_assoc] using hcovers
  obtain ⟨hfirst, hlast, -⟩ := hbounds
  have htable := List.all_eq_true.1 lowerCaseRuns_ascii run hmem
  simp only [Bool.or_eq_true, Bool.and_eq_true, Nat.blt_eq, Nat.ble_eq, beq_iff_eq] at htable
  rcases htable with (hinside | ⟨hkelvin, hkelvin'⟩) | houtside
  · omega
  · have hc : c.toNat = kelvin.toNat := by omega
    exact Char.toNat_inj.1 hc
  · unfold CaseRun.lower at hlower houtside
    omega

/-- Of the characters outside ASCII, only the Kelvin sign has a lower case in ASCII. -/
lemma ascii_or_kelvin_of_lowerChar {c : Char} (h : ∀ d ∈ lowerChar c, d.toNat < 0x80) :
    c.toNat < 0x80 ∨ c = kelvin := by
  by_cases hascii : c.toNat < 0x80
  · exact .inl hascii
  · right
    unfold lowerChar at h
    rw [if_neg hascii] at h
    split at h
    case isTrue => exact absurd (h (Char.ofNat 0x307) (by simp)) (by decide)
    case isFalse =>
      split at h
      case h_1 run hrun =>
        have hplaced := inLetterBlock_lower hrun
        have hlower : (Char.ofNat (run.lower c.toNat)).toNat < 0x80 :=
          h _ (List.mem_singleton.2 rfl)
        rw [toNat_ofNat hplaced] at hlower
        exact eq_kelvin_of_lowerCaseRun? hrun hascii hlower
      case h_2 => exact absurd (h c (by simp)) hascii

end ChangelogParameters.Text
