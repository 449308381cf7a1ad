import ChangelogParameters.Proofs.Text.CaseTable

/-!
# Lower-cased texts

Lower-casing a text is a matter of its single characters but for the capital sigma, and both small
sigmas are lower case.  So whatever stands in a lower-cased text is lower case, and lower-casing it
once more changes nothing.  A text of ASCII characters is lower-cased letter by letter, and the only
other character that can be lower-cased into such a text is the Kelvin sign.
-/

namespace ChangelogParameters.Text

/-! ### What stands in a lower-cased text -/

/-- A small sigma is one of the two there are. -/
lemma smallSigma_eq (before after : List Char) :
    smallSigma before after = 'ς' ∨ smallSigma before after = 'σ' := by
  unfold smallSigma
  split
  · exact .inl rfl
  · exact .inr rfl

/-- What holds of both small sigmas and of what the characters of a text are mapped to holds of all
characters of its lower case. -/
lemma forall_mem_lowerAfter {p : Char → Prop} {cs : List Char} (hfinal : p 'ς') (hmedial : p 'σ')
    (h : ∀ c ∈ cs, ∀ d ∈ lowerChar c, p d) (before : List Char) :
    ∀ d ∈ lowerAfter before cs, p d := by
  induction cs generalizing before with
  | nil => simp [lowerAfter]
  | cons c cs ih =>
    intro d hd
    rw [lowerAfter, List.mem_append] at hd
    rcases hd with hd | hd
    · split at hd
      case isTrue =>
        rw [List.mem_singleton.1 hd]
        rcases smallSigma_eq before cs with hsigma | hsigma
        · rwa [hsigma]
        · rwa [hsigma]
      case isFalse => exact h c (by simp) d hd
    · exact ih (fun c' hc' => h c' (by simp [hc'])) (c :: before) d hd

/-- The characters of a lower-cased text are lower case. -/
lemma isLower_of_mem_lowerChars {cs : List Char} {d : Char} (h : d ∈ lowerChars cs) :
    IsLower d := by
  have hmapped : ∀ c ∈ cs, ∀ d ∈ lowerChar c, IsLower d :=
    fun c _ d hd => isLower_of_mem_lowerChar hd
  exact forall_mem_lowerAfter (by decide +kernel) (by decide +kernel) hmapped [] d h

/-- A character of a lower-cased text stood in the text before, or lies in the blocks of letters. -/
lemma mem_or_inLetterBlock_of_mem_lowerChars {cs : List Char} {d : Char}
    (h : d ∈ lowerChars cs) : d ∈ cs ∨ InLetterBlock d.toNat := by
  refine forall_mem_lowerAfter (p := fun d => d ∈ cs ∨ InLetterBlock d.toNat) ?_ ?_ ?_ [] d h
  · exact .inr (by decide)
  · exact .inr (by decide)
  · intro c hc d hd
    rcases lowerChar_placed c with hsame | hplaced
    · rw [hsame, List.mem_singleton] at hd
      rw [hd]
      exact .inl hc
    · exact .inr (hplaced d hd)

/-! ### Lower-casing twice -/

/-- A text of lower case characters is its own lower case. -/
lemma lowerAfter_of_isLower {cs : List Char} (h : ∀ c ∈ cs, IsLower c) (before : List Char) :
    lowerAfter before cs = cs := by
  induction cs generalizing before with
  | nil => rfl
  | cons c cs ih =>
    obtain ⟨hsame, hsigma⟩ := h c (by simp)
    have hrest := ih (fun c' hc' => h c' (by simp [hc'])) (c :: before)
    rw [lowerAfter, if_neg hsigma, hsame, hrest, List.singleton_append]

/-- Lower-casing twice is lower-casing once. -/
lemma lower_lower (s : String) : lower (lower s) = lower s := by
  have hlower : ∀ c ∈ lowerChars s.toList, IsLower c := fun c hc => isLower_of_mem_lowerChars hc
  rw [lower, toList_lower]
  exact congrArg String.ofList (lowerAfter_of_isLower hlower [])

/-- Nothing is lower-cased away. -/
lemma lowerChar_ne_nil (c : Char) : lowerChar c ≠ [] := by
  unfold lowerChar
  repeat' split
  all_goals simp

/-- Only the empty text has an empty lower case. -/
lemma lowerChars_eq_nil_iff {cs : List Char} : lowerChars cs = [] ↔ cs = [] := by
  cases cs with
  | nil => simp
  | cons c cs =>
    have hfirst : (if c = 'Σ' then [smallSigma [] cs] else lowerChar c) ≠ [] := by
      split
      · simp
      · exact lowerChar_ne_nil c
    simp [lowerChars, lowerAfter, hfirst]

lemma lower_eq_empty_iff {s : String} : lower s = "" ↔ s = "" := by
  rw [← String.toList_eq_nil_iff, toList_lower, lowerChars_eq_nil_iff, String.toList_eq_nil_iff]

/-! ### Longer texts -/

/-- The lower case of a text has as many characters as those of its characters together. -/
lemma length_lowerAfter (before cs : List Char) :
    (lowerAfter before cs).length = (cs.flatMap lowerChar).length := by
  induction cs generalizing before with
  | nil => rfl
  | cons c cs ih =>
    have hfirst : (if c = 'Σ' then [smallSigma before cs] else lowerChar c).length =
        (lowerChar c).length := by
      split
      case isTrue hc =>
        have hsigma : (lowerChar 'Σ').length = 1 := by decide +kernel
        rw [hc, hsigma, List.length_singleton]
      case isFalse => rfl
    rw [lowerAfter, List.length_append, hfirst, ih, List.flatMap_cons, List.length_append]

/-- A text that goes on has another lower case than its beginning. -/
lemma lowerChars_append_ne (cs : List Char) {more : List Char} (hne : more ≠ []) :
    lowerChars (cs ++ more) ≠ lowerChars cs := by
  intro heq
  have hlength := congrArg List.length heq
  rw [lowerChars, lowerChars, length_lowerAfter, length_lowerAfter, List.flatMap_append,
    List.length_append, Nat.add_eq_left, List.length_eq_zero_iff,
    List.flatMap_eq_nil_iff] at hlength
  obtain ⟨c, cs', rfl⟩ := List.exists_cons_of_ne_nil hne
  exact lowerChar_ne_nil c (hlength c (by simp))

/-! ### ASCII texts -/

lemma isAscii_iff {s : String} : isAscii s = true ↔ ∀ c ∈ s.toList, c.toNat < 0x80 := by
  simp [isAscii]

/-- An ASCII text is lower-cased letter by letter. -/
lemma lowerAfter_of_ascii {cs : List Char} (h : ∀ c ∈ cs, c.toNat < 0x80) (before : List Char) :
    lowerAfter before cs = cs.map Char.toLower := by
  induction cs generalizing before with
  | nil => rfl
  | cons c cs ih =>
    have hc : c.toNat < 0x80 := h c (by simp)
    have hsigma : c ≠ 'Σ' := by
      rintro rfl
      exact absurd hc (by decide)
    have hrest := ih (fun c' hc' => h c' (by simp [hc'])) (c :: before)
    rw [lowerAfter, if_neg hsigma, lowerChar, if_pos hc, hrest]
    rfl

/-- What is lower-cased to ASCII characters consists of ASCII characters and Kelvin signs. -/
lemma ascii_or_kelvin_of_lowerAfter {cs before : List Char}
    (h : ∀ d ∈ lowerAfter before cs, d.toNat < 0x80) :
    ∀ c ∈ cs, c.toNat < 0x80 ∨ c = kelvin := by
  induction cs generalizing before with
  | nil => simp
  | cons c cs ih =>
    rw [lowerAfter] at h
    obtain ⟨hfirst, hrest⟩ := List.forall_mem_append.1 h
    refine List.forall_mem_cons.2 ⟨?_, ih hrest⟩
    split at hfirst
    case isTrue =>
      have hsigma := hfirst _ (List.mem_singleton.2 rfl)
      rcases smallSigma_eq before cs with heq | heq
      · exact absurd (heq ▸ hsigma) (by decide)
      · exact absurd (heq ▸ hsigma) (by decide)
    case isFalse => exact ascii_or_kelvin_of_lowerChar hfirst

/-- A text with the lower case of an ASCII text is an ASCII text itself, unless it has a Kelvin
sign. -/
lemma isAscii_of_lower_eq {a b : String} (ha : isAscii a = true) (h : lower a = lower b)
    (hkelvin : kelvin ∉ b.toList) : isAscii b = true := by
  have hchars : lowerChars b.toList = a.toList.map Char.toLower := by
    rw [← toList_lower, ← h, toList_lower]
    exact lowerAfter_of_ascii (isAscii_iff.1 ha) []
  have hascii : ∀ d ∈ lowerAfter [] b.toList, d.toNat < 0x80 := by
    change ∀ d ∈ lowerChars b.toList, d.toNat < 0x80
    rw [hchars]
    intro d hd
    obtain ⟨c, hc, rfl⟩ := List.mem_map.1 hd
    exact (toLower_lt_iff c).2 (isAscii_iff.1 ha c hc)
  refine isAscii_iff.2 fun c hc => ?_
  rcases ascii_or_kelvin_of_lowerAfter hascii c hc with hsmall | rfl
  · exact hsmall
  · exact absurd hc hkelvin

/-- ASCII texts with the same lower case differ only in the case of their letters. -/
lemma equalIgnoringAsciiCase_of_isAscii {a b : String} (ha : isAscii a = true)
    (hb : isAscii b = true) (h : lower a = lower b) : equalIgnoringAsciiCase a b = true := by
  have hchars : ∀ s : String, isAscii s = true → (lower s).toList = s.toList.map Char.toLower := by
    intro s hs
    rw [toList_lower]
    exact lowerAfter_of_ascii (isAscii_iff.1 hs) []
  rw [equalIgnoringAsciiCase_iff, ← hchars a ha, ← hchars b hb, h]

end ChangelogParameters.Text
