import ChangelogParameters.Proofs.Text.Lowered
import ChangelogParameters.Text.Blank
import Mathlib.Data.List.DropRight

/-!
# Texts in normal form

A name that is given by hand is trimmed first and lower-cased afterwards.  Lower-casing makes no
blanks, so the result is still trimmed, and doing both once more changes nothing: it is a normal
form.  Lower-casing makes no commas either, so names that were cut out of a comma separated text
can be put together again with commas, and the pieces of the new text are the names.
-/

namespace ChangelogParameters.Text

/-! ### Trimming -/

/-- No blank stands at either end. -/
def BareEnds (cs : List Char) : Prop :=
  (∀ c ∈ cs.head?, isBlank c = false) ∧ ∀ c ∈ cs.getLast?, isBlank c = false

/-- What begins with a character that is not blank loses nothing at its beginning. -/
lemma dropWhile_isBlank_of_head? {cs : List Char} (h : ∀ c ∈ cs.head?, isBlank c = false) :
    cs.dropWhile isBlank = cs := by
  cases cs with
  | nil => rfl
  | cons c cs =>
    have hc : isBlank c = false := h c rfl
    rw [List.dropWhile_cons_of_neg (by simp [hc])]

/-- What is left when blanks are dropped does not begin with one. -/
lemma isBlank_of_mem_head?_dropWhile {cs : List Char} :
    ∀ c ∈ (cs.dropWhile isBlank).head?, isBlank c = false := by
  intro c hc
  have hstop := List.head?_dropWhile_not isBlank cs
  rwa [Option.mem_def.1 hc] at hstop

/-- Characters without blanks at the ends stay as they are when they are trimmed. -/
lemma trimChars_of_bareEnds {cs : List Char} (h : BareEnds cs) : trimChars cs = cs := by
  obtain ⟨hhead, hlast⟩ := h
  have hreverse : cs.reverse.dropWhile isBlank = cs.reverse := by
    refine dropWhile_isBlank_of_head? ?_
    rwa [List.head?_reverse]
  rw [trimChars, dropWhile_isBlank_of_head? hhead, hreverse, List.reverse_reverse]

/-- No blanks are left at the ends when characters are trimmed. -/
lemma bareEnds_trimChars (cs : List Char) : BareEnds (trimChars cs) := by
  constructor
  · intro c hc
    obtain ⟨after, hafter⟩ : trimChars cs <+: cs.dropWhile isBlank :=
      List.rdropWhile_prefix isBlank (cs.dropWhile isBlank)
    have hhead : c ∈ (cs.dropWhile isBlank).head? := by
      rw [← hafter, List.head?_append, Option.mem_def.1 hc]
      rfl
    exact isBlank_of_mem_head?_dropWhile c hhead
  · rw [trimChars, List.getLast?_reverse]
    exact isBlank_of_mem_head?_dropWhile

/-- Trimming twice is trimming once. -/
lemma trimChars_trimChars (cs : List Char) : trimChars (trimChars cs) = trimChars cs :=
  trimChars_of_bareEnds (bareEnds_trimChars cs)

lemma trim_trim (s : String) : trim (trim s) = trim s := by
  rw [trim, toList_trim, trimChars_trimChars, ← toList_trim, String.ofList_toList]

/-- Trimming takes blanks away, and nothing else. -/
lemma exists_blanks_trimChars (cs : List Char) :
    ∃ before after, cs = before ++ trimChars cs ++ after ∧
      (∀ c ∈ before, isBlank c = true) ∧ ∀ c ∈ after, isBlank c = true := by
  refine ⟨cs.takeWhile isBlank, (cs.dropWhile isBlank).rtakeWhile isBlank, ?_, ?_, ?_⟩
  · have hright : trimChars cs ++ (cs.dropWhile isBlank).rtakeWhile isBlank =
        cs.dropWhile isBlank := by
      rw [trimChars, List.rtakeWhile, ← List.reverse_append, List.takeWhile_append_dropWhile,
        List.reverse_reverse]
    rw [List.append_assoc, hright, List.takeWhile_append_dropWhile]
  · intro c hc
    exact List.mem_takeWhile_imp hc
  · intro c hc
    exact List.mem_takeWhile_imp (List.mem_reverse.1 hc)

/-- What is left of trimmed characters was there before. -/
lemma mem_of_mem_trimChars {cs : List Char} {c : Char} (h : c ∈ trimChars cs) : c ∈ cs := by
  obtain ⟨before, after, hsplit, -, -⟩ := exists_blanks_trimChars cs
  rw [hsplit]
  simp [h]

/-! ### Lower-casing what is trimmed -/

/-- A character that is not blank does not become blank. -/
lemma isBlank_of_mem_lowerChar {c d : Char} (hc : isBlank c = false) (hd : d ∈ lowerChar c) :
    isBlank d = false := by
  rcases lowerChar_placed c with hsame | hplaced
  · rw [hsame, List.mem_singleton] at hd
    rwa [hd]
  · exact isBlank_of_inLetterBlock (hplaced d hd)

/-- The lower case of a text begins with what its first character becomes, which is something, and
not blank unless the character is. -/
lemma exists_lowerAfter_cons (before : List Char) (c : Char) (cs : List Char) :
    ∃ ds, ds ≠ [] ∧ lowerAfter before (c :: cs) = ds ++ lowerAfter (c :: before) cs ∧
      (isBlank c = false → ∀ d ∈ ds, isBlank d = false) := by
  refine ⟨if c = 'Σ' then [smallSigma before cs] else lowerChar c, ?_, rfl, ?_⟩
  · split
    · simp
    · exact lowerChar_ne_nil c
  · intro hc d hd
    split at hd
    case isTrue =>
      rw [List.mem_singleton.1 hd]
      rcases smallSigma_eq before cs with hsigma | hsigma
      · rw [hsigma]
        decide
      · rw [hsigma]
        decide
    case isFalse => exact isBlank_of_mem_lowerChar hc hd

/-- Where nothing blank stands at the end, nothing blank stands at the end of the lower case. -/
lemma isBlank_of_mem_getLast?_lowerAfter {cs : List Char}
    (h : ∀ c ∈ cs.getLast?, isBlank c = false) (before : List Char) :
    ∀ d ∈ (lowerAfter before cs).getLast?, isBlank d = false := by
  induction cs generalizing before with
  | nil => simp [lowerAfter]
  | cons c cs ih =>
    intro d hd
    obtain ⟨ds, -, hsplit, hblank⟩ := exists_lowerAfter_cons before c cs
    rw [hsplit, List.getLast?_append] at hd
    cases cs with
    | nil =>
      have hc : isBlank c = false := h c rfl
      rw [lowerAfter, List.getLast?_nil, Option.none_or] at hd
      exact hblank hc d (List.mem_of_getLast? hd)
    | cons c' cs =>
      have hrest : ∀ c ∈ (c' :: cs).getLast?, isBlank c = false := by
        rwa [List.getLast?_cons_cons] at h
      obtain ⟨ds', hne, hsplit', -⟩ := exists_lowerAfter_cons (c :: before) c' cs
      cases hlast : (lowerAfter (c :: before) (c' :: cs)).getLast? with
      | none =>
        rw [List.getLast?_eq_none_iff, hsplit'] at hlast
        exact absurd (List.append_eq_nil_iff.1 hlast).1 hne
      | some e =>
        rw [hlast, Option.some_or] at hd
        exact ih hrest (c :: before) d (hlast.trans hd)

/-- The lower case of trimmed characters is trimmed. -/
lemma bareEnds_lowerChars {cs : List Char} (h : BareEnds cs) : BareEnds (lowerChars cs) := by
  refine ⟨?_, isBlank_of_mem_getLast?_lowerAfter h.2 []⟩
  cases cs with
  | nil => simp
  | cons c cs =>
    have hc : isBlank c = false := h.1 c rfl
    obtain ⟨ds, hne, hsplit, hblank⟩ := exists_lowerAfter_cons [] c cs
    intro d hd
    obtain ⟨e, es, rfl⟩ := List.exists_cons_of_ne_nil hne
    rw [lowerChars, hsplit, List.cons_append, List.head?_cons] at hd
    obtain rfl := Option.some.inj hd
    exact hblank hc e (by simp)

/-- What is trimmed and lower-cased is still trimmed. -/
lemma trim_lower_trim (s : String) : trim (lower (trim s)) = lower (trim s) := by
  have hends := bareEnds_lowerChars (bareEnds_trimChars s.toList)
  rw [trim, toList_lower, toList_trim, trimChars_of_bareEnds hends, ← toList_trim, ← toList_lower,
    String.ofList_toList]

/-! ### Normal forms -/

/-- A name in normal form: not blank, trimmed and lower-cased. -/
structure IsNormal (s : String) : Prop where
  not_blank : isBlankText s = false
  trimmed : trim s = s
  lowered : lower s = s

/-- No blank stands at either end of a trimmed text. -/
lemma bareEnds_of_trimmed {s : String} (h : trim s = s) : BareEnds s.toList := by
  rw [← h, toList_trim]
  exact bareEnds_trimChars s.toList

/-- A trimmed text is not blank, unless it is empty. -/
lemma isBlankText_eq_false_of_trimmed {s : String} (htrim : trim s = s) (hne : s ≠ "") :
    isBlankText s = false := by
  have hends := bareEnds_of_trimmed htrim
  have hnil : s.toList ≠ [] := by
    intro hnil
    exact hne (String.toList_eq_nil_iff.1 hnil)
  obtain ⟨c, cs, hcs⟩ := List.exists_cons_of_ne_nil hnil
  have hc : isBlank c = false := hends.1 c (by rw [hcs]; rfl)
  simp [isBlankText, hcs, hc]

/-- A name is in normal form if it is not empty and if trimming and lower-casing lead back to
it. -/
lemma isNormal_iff {s : String} : IsNormal s ↔ s ≠ "" ∧ lower (trim s) = s := by
  constructor
  · rintro ⟨hblank, htrim, hlower⟩
    refine ⟨?_, by rw [htrim, hlower]⟩
    rintro rfl
    cases hblank
  · rintro ⟨hne, hnormal⟩
    have htrimmed : trim s = s := by
      have htrim := trim_lower_trim s
      rwa [hnormal] at htrim
    refine ⟨isBlankText_eq_false_of_trimmed htrimmed hne, htrimmed, ?_⟩
    rwa [htrimmed] at hnormal

instance (s : String) : Decidable (IsNormal s) :=
  decidable_of_iff _ isNormal_iff.symm

example : IsNormal "prod" ∧ ¬ IsNormal "PROD" ∧ ¬ IsNormal "prod " ∧ ¬ IsNormal "" := by
  decide +kernel

/-- Whatever is trimmed and lower-cased is in normal form, unless nothing is left of it. -/
lemma isNormal_lower_trim {s : String} (h : lower (trim s) ≠ "") : IsNormal (lower (trim s)) := by
  refine isNormal_iff.2 ⟨h, ?_⟩
  rw [trim_lower_trim, lower_lower]

/-! ### Comma separated texts -/

/-- The pieces of a text are found as in a list. -/
lemma pieces_eq_splitOn (separator : Char) (cs : List Char) :
    pieces separator cs = cs.splitOn separator := by
  induction cs with
  | nil => rfl
  | cons c cs ih =>
    have hne := pieces_ne_nil separator cs
    rw [List.splitOn_cons_eq_if_modifyHead, pieces, ← ih]
    by_cases hc : c = separator
    · simp [hc]
    · obtain ⟨piece, rest, hpieces⟩ := List.exists_cons_of_ne_nil hne
      simp [hc, hpieces]

/-- No piece has a separator in it. -/
lemma not_mem_of_mem_pieces {separator : Char} {cs piece : List Char}
    (h : piece ∈ pieces separator cs) : separator ∉ piece := by
  induction cs generalizing piece with
  | nil =>
    rw [pieces, List.mem_singleton] at h
    simp [h]
  | cons c cs ih =>
    rw [pieces] at h
    split at h
    case isTrue =>
      rcases List.mem_cons.1 h with rfl | h
      · simp
      · exact ih h
    case isFalse hc =>
      obtain ⟨first, rest, hpieces⟩ := List.exists_cons_of_ne_nil (pieces_ne_nil separator cs)
      rw [hpieces] at h ih
      rcases List.mem_cons.1 h with rfl | h
      · have hfirst := ih (List.mem_cons_self ..)
        simp [hfirst, Ne.symm hc]
      · exact ih (List.mem_cons_of_mem first h)

/-- There is no comma in a piece of a comma separated text. -/
lemma comma_not_mem_of_mem_commaSeparated {s name : String} (h : name ∈ commaSeparated s) :
    ',' ∉ name.toList := by
  obtain ⟨piece, hpiece, rfl⟩ := List.mem_map.1 h
  rw [String.toList_ofList]
  exact not_mem_of_mem_pieces hpiece

/-- There is no comma in a name that is cut out of a comma separated text and normalised. -/
lemma comma_not_mem_lower_trim {s name : String} (h : name ∈ commaSeparated s) :
    ',' ∉ (lower (trim name)).toList := by
  intro hcomma
  rw [toList_lower, toList_trim] at hcomma
  rcases mem_or_inLetterBlock_of_mem_lowerChars hcomma with hmem | hblock
  · exact comma_not_mem_of_mem_commaSeparated h (mem_of_mem_trimChars hmem)
  · exact absurd hblock (by decide)

/-- Names without a separator are the pieces of the text in which the separator joins them. -/
lemma pieces_intercalate {separator : Char} {joint : String} (hjoint : joint.toList = [separator])
    {names : List String} (hne : names ≠ []) (h : ∀ name ∈ names, separator ∉ name.toList) :
    pieces separator (joint.intercalate names).toList = names.map String.toList := by
  have hpieces : ∀ piece ∈ names.map String.toList, separator ∉ piece := by
    intro piece hpiece
    obtain ⟨name, hname, rfl⟩ := List.mem_map.1 hpiece
    exact h name hname
  have hlist : names.map String.toList ≠ [] := by simpa using hne
  rw [pieces_eq_splitOn, String.toList_intercalate, hjoint]
  exact List.splitOn_intercalate separator hpieces hlist

/-- Names without a separator can be told from the text in which the separator joins them. -/
lemma intercalate_inj {separator : Char} {joint : String} (hjoint : joint.toList = [separator])
    {names names' : List String} (hne : names ≠ []) (hne' : names' ≠ [])
    (h : ∀ name ∈ names, separator ∉ name.toList) (h' : ∀ name ∈ names', separator ∉ name.toList)
    (heq : joint.intercalate names = joint.intercalate names') : names = names' := by
  have hpieces : names.map String.toList = names'.map String.toList := by
    rw [← pieces_intercalate hjoint hne h, ← pieces_intercalate hjoint hne' h', heq]
  exact (List.map_inj_right fun _ _ => String.toList_inj.1).1 hpieces

/-- Names without commas are the pieces of the text in which they are put together with commas. -/
lemma commaSeparated_intercalate {names : List String} (hne : names ≠ [])
    (hcomma : ∀ name ∈ names, ',' ∉ name.toList) :
    commaSeparated (",".intercalate names) = names := by
  rw [commaSeparated, pieces_intercalate rfl hne hcomma, List.map_map]
  simp [Function.comp_def]

/-- The pieces of a text, put together with commas, are the text. -/
lemma intercalate_commaSeparated (s : String) : ",".intercalate (commaSeparated s) = s := by
  have hpieces : (commaSeparated s).map String.toList = s.toList.splitOn ',' := by
    rw [commaSeparated, List.map_map, ← pieces_eq_splitOn]
    simp [Function.comp_def]
  apply String.toList_inj.1
  rw [String.toList_intercalate, hpieces]
  exact List.intercalate_splitOn ','

end ChangelogParameters.Text
