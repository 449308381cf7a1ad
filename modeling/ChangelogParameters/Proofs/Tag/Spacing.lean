import ChangelogParameters.Proofs.Tag.Printing

/-!
# Spacing

Blanks and delimiters separate what stands before them from what stands behind them: no word goes
on across one, so the tokens on both sides are found independently of each other.  It follows that
blanks matter only between two characters of words, and there only in that there are some.

`Respaced` says of two texts that they differ in nothing but blanks that do not matter.  Such texts
are walked through together, from one character that is not blank to the next one.  When they are
scanned, the tokens found up to such a character are the same in both, and so is the pending word
(`scanFrom_sameGap`); this carries the induction.  The walk also goes the other way round.  Of texts
with the same tokens and the same characters up to blanks, neither can have a gap inside a word of
the other, because a word that goes on is another token (`ofWord_append_ne`).
-/

namespace ChangelogParameters

/-! ### Characters that are not blank -/

namespace Text

/-- The characters that are left when all blanks are taken away. -/
def bareChars (cs : List Char) : List Char :=
  cs.filter fun c => !isBlank c

/-- Nothing is left of blanks, and of nothing else. -/
lemma bareChars_eq_nil_iff {cs : List Char} :
    bareChars cs = [] ↔ ∀ c ∈ cs, isBlank c = true := by
  simp [bareChars]

/-- A gap ends with the next character that is left. -/
lemma bareChars_gap {gap : List Char} (hgap : ∀ c ∈ gap, isBlank c = true) {c : Char}
    (hc : isBlank c = false) (cs : List Char) :
    bareChars (gap ++ c :: cs) = c :: bareChars cs := by
  have hnone : gap.filter (fun c => !isBlank c) = [] := bareChars_eq_nil_iff.2 hgap
  rw [bareChars, List.filter_append, hnone, List.nil_append, List.filter_cons_of_pos (by simp [hc]),
    bareChars]

/-- There is a gap before the first character that is left. -/
lemma exists_gap_of_bareChars {cs bare : List Char} {c : Char} (h : bareChars cs = c :: bare) :
    ∃ gap rest, cs = gap ++ c :: rest ∧ (∀ c ∈ gap, isBlank c = true) ∧ isBlank c = false ∧
      bareChars rest = bare := by
  obtain ⟨gap, rest, hsplit, hgap, hc, hrest⟩ := List.filter_eq_cons_iff.1 h
  exact ⟨gap, rest, hsplit, by simpa using hgap, by simpa using hc, hrest⟩

end Text

namespace Token

/-! ### Texts that differ in their blanks -/

/-- A place in a text where blanks may be put in and taken away, given by the characters on its left
and on its right, of which there is none at the ends of the text. -/
inductive FreePlace : Option Char → Option Char → Prop
  | start (right : Option Char) : FreePlace none right
  | stop (left : Option Char) : FreePlace left none
  | behind {c : Char} {t : Token} (hc : Delimits c t) (right : Option Char) :
      FreePlace (some c) right
  | before (left : Option Char) {c : Char} {t : Token} (hc : Delimits c t) :
      FreePlace left (some c)

/-- What two texts may have at the same place, between the same characters. -/
structure SameGap (left right : Option Char) (gap gap' : List Char) : Prop where
  /-- There are only blanks in the first text. -/
  blank : ∀ c ∈ gap, Text.isBlank c = true
  /-- There are only blanks in the second one. -/
  blank' : ∀ c ∈ gap', Text.isBlank c = true
  /-- Unless the place is free, there are blanks in both or in neither. -/
  kept : FreePlace left right ∨ (gap = [] ↔ gap' = [])

/-- Two texts behind the character `left` have the same characters up to blanks, and the blanks
before each of these, and those at the end, differ at most as they may at such a place. -/
inductive RespacedAfter : Option Char → List Char → List Char → Prop
  | stop {left : Option Char} (gap gap' : List Char) (hgap : SameGap left none gap gap') :
      RespacedAfter left gap gap'
  | char {left : Option Char} (gap gap' : List Char) {c : Char} {cs cs' : List Char}
      (hc : Text.isBlank c = false) (hgap : SameGap left (some c) gap gap')
      (hrest : RespacedAfter (some c) cs cs') :
      RespacedAfter left (gap ++ c :: cs) (gap' ++ c :: cs')

/-- Two texts differ only in how many and which blanks there are at places where both have some, and
at places next to a delimiter or at the ends. -/
def Respaced (s t : String) : Prop :=
  RespacedAfter none s.toList t.toList

/-- Texts that differ in blanks only have the same characters up to blanks. -/
lemma RespacedAfter.bareChars_eq {left : Option Char} {cs cs' : List Char}
    (h : RespacedAfter left cs cs') : Text.bareChars cs = Text.bareChars cs' := by
  induction h with
  | stop gap gap' hgap =>
    rw [Text.bareChars_eq_nil_iff.2 hgap.blank, Text.bareChars_eq_nil_iff.2 hgap.blank']
  | char gap gap' hc hgap _ ih =>
    rw [Text.bareChars_gap hgap.blank hc, Text.bareChars_gap hgap.blank' hc, ih]

/-! ### Gaps in front of a character -/

/-- A delimiter ends the pending word, whether there are blanks before it or not. -/
lemma scanFrom_gap_delimiter {gap : List Char} (hgap : ∀ c ∈ gap, Text.isBlank c = true) {c : Char}
    {t : Token} (hc : Delimits c t) (pending cs : List Char) :
    scanFrom pending (gap ++ c :: cs) = ofPending pending ++ [t] ++ scanFrom [] cs := by
  rw [scanFrom_append_cons (isWordChar_of_delimits hc), scanFrom_pending_blanks hgap,
    ofDelimiter?_eq_some_iff.2 hc, List.append_assoc]
  rfl

/-- A character of a word begins one if there are blanks before it or if no word is pending. -/
lemma scanFrom_gap_word {gap : List Char} (hgap : ∀ c ∈ gap, Text.isBlank c = true) {c : Char}
    (hc : InWord c) {pending : List Char} (h : pending = [] ∨ gap ≠ []) (cs : List Char) :
    scanFrom pending (gap ++ c :: cs) = ofPending pending ++ scanFrom [c] cs := by
  have hbegin : scanFrom [] (gap ++ c :: cs) = scanFrom [c] cs := by
    rw [scanFrom_blanks_append hgap, scanFrom, if_pos (isWordChar_iff.2 hc)]
  rcases h with rfl | hne
  · exact hbegin
  · have hstop : ∀ c' ∈ (gap ++ c :: cs).head?, isWordChar c' = false := by
      rw [List.head?_append_of_ne_nil gap hne]
      exact isWordChar_of_mem_head?_blanks hgap
    rw [scanFrom_of_stop hstop, hbegin]

/-- A character of a word goes on with the pending one if there are no blanks before it. -/
lemma scanFrom_cons_word {c : Char} (hc : InWord c) (pending cs : List Char) :
    scanFrom pending (c :: cs) = scanFrom (c :: pending) cs := by
  rw [scanFrom, if_pos (isWordChar_iff.2 hc)]

/-! ### From one character to the next -/

/-- What can be pending behind a character, or at the beginning of a text. -/
structure Pends (left : Option Char) (pending : List Char) : Prop where
  /-- A word is pending only behind one of its characters. -/
  word : pending ≠ [] → ∃ c ∈ left, InWord c
  /-- Nothing is pending only where blanks do not matter. -/
  free : pending = [] → ∀ right, FreePlace left right

lemma Pends.start : Pends none [] :=
  ⟨absurd rfl, fun _ => .start⟩

lemma Pends.of_delimits {c : Char} {t : Token} (hc : Delimits c t) : Pends (some c) [] :=
  ⟨absurd rfl, fun _ => .behind hc⟩

lemma Pends.of_inWord {c : Char} (hc : InWord c) (pending : List Char) :
    Pends (some c) (c :: pending) :=
  ⟨fun _ => ⟨c, rfl, hc⟩, fun hnil => absurd hnil (List.cons_ne_nil c pending)⟩

/-- What is neither blank nor in a word is a delimiter. -/
lemma exists_delimits {c : Char} (hblank : Text.isBlank c = false) (hword : ¬ InWord c) :
    ∃ t, Delimits c t := by
  by_contra hnone
  exact hword ⟨hblank, not_exists.1 hnone⟩

/-- At a free place before a character of a word, no word is pending. -/
lemma Pends.eq_nil {left : Option Char} {pending : List Char} (h : Pends left pending) {c : Char}
    (hc : InWord c) (hfree : FreePlace left (some c)) : pending = [] := by
  by_contra hne
  obtain ⟨c', hc', hword⟩ := h.word hne
  cases hfree with
  | start => cases hc'
  | behind hdelimits =>
    obtain rfl := Option.some.inj hc'
    exact hword.2 _ hdelimits
  | before _ hdelimits => exact hc.2 _ hdelimits

/-- A character of a word begins one in both texts or in neither. -/
lemma SameGap.begins_iff {left : Option Char} {gap gap' : List Char} {c : Char}
    (hgap : SameGap left (some c) gap gap') (hc : InWord c) {pending : List Char}
    (hpends : Pends left pending) :
    (pending = [] ∨ gap ≠ []) ↔ (pending = [] ∨ gap' ≠ []) := by
  rcases hgap.kept with hfree | hkept
  · simp [hpends.eq_nil hc hfree]
  · rw [ne_eq, ne_eq, hkept]

/-- **One step.**  In the same gap and the character behind it the same tokens are found in two
texts, and the same word is pending afterwards. -/
lemma scanFrom_sameGap {left : Option Char} {gap gap' : List Char} {c : Char}
    (hblank : Text.isBlank c = false) (hgap : SameGap left (some c) gap gap') {pending : List Char}
    (hpends : Pends left pending) :
    ∃ found pending', Pends (some c) pending' ∧
      (∀ cs, scanFrom pending (gap ++ c :: cs) = found ++ scanFrom pending' cs) ∧
      ∀ cs, scanFrom pending (gap' ++ c :: cs) = found ++ scanFrom pending' cs := by
  by_cases hc : InWord c
  · have hbegins := hgap.begins_iff hc hpends
    by_cases hbegin : pending = [] ∨ gap ≠ []
    · exact ⟨ofPending pending, [c], .of_inWord hc [], scanFrom_gap_word hgap.blank hc hbegin,
        scanFrom_gap_word hgap.blank' hc (hbegins.1 hbegin)⟩
    · -- without blanks the pending word goes on, and it does so in both texts
      have hbegin' := mt hbegins.2 hbegin
      rw [not_or, not_not] at hbegin hbegin'
      obtain ⟨-, rfl⟩ := hbegin
      obtain ⟨-, rfl⟩ := hbegin'
      exact ⟨[], c :: pending, .of_inWord hc pending, scanFrom_cons_word hc pending,
        scanFrom_cons_word hc pending⟩
  · obtain ⟨t, ht⟩ := exists_delimits hblank hc
    exact ⟨ofPending pending ++ [t], [], .of_delimits ht,
      scanFrom_gap_delimiter hgap.blank ht pending, scanFrom_gap_delimiter hgap.blank' ht pending⟩

/-- The same tokens are found in two texts that differ in blanks that do not matter. -/
lemma scanFrom_respacedAfter {left : Option Char} {cs cs' : List Char}
    (h : RespacedAfter left cs cs') {pending : List Char} (hpends : Pends left pending) :
    scanFrom pending cs = scanFrom pending cs' := by
  induction h generalizing pending with
  | stop gap gap' hgap =>
    rw [scanFrom_pending_blanks hgap.blank, scanFrom_pending_blanks hgap.blank']
  | char gap gap' hc hgap _ ih =>
    obtain ⟨found, pending', hpends', hfound, hfound'⟩ := scanFrom_sameGap hc hgap hpends
    rw [hfound, hfound', ih hpends']

/-! ### Words that go on -/

/-- A token is spelt in one way. -/
lemma Spells.unique {n n' : String} {t : Token} (h : Spells n t) (h' : Spells n' t) : n = n' := by
  cases h <;> cases h' <;> rfl

/-- A word that goes on is another token than its beginning. -/
lemma ofWord_append_ne (w : List Char) {more : List Char} (hne : more ≠ []) :
    ofWord (w ++ more) ≠ ofWord w := by
  intro heq
  have hspells := ofWord_eq_iff.1 heq
  have hsame := hspells.unique (ofWord_eq_iff.1 rfl)
  exact Text.lowerChars_append_ne w hne (String.ofList_inj.1 hsame)

/-- The first token found is the pending word with whatever goes on with it. -/
lemma exists_head?_scanFrom (c : Char) (pending cs : List Char) :
    ∃ more, (scanFrom (c :: pending) cs).head? =
      some (ofWord ((c :: pending).reverse ++ more)) := by
  induction cs generalizing c pending with
  | nil => exact ⟨[], by rw [List.append_nil]; rfl⟩
  | cons d cs ih =>
    by_cases hd : isWordChar d = true
    · obtain ⟨more, hmore⟩ := ih d (c :: pending)
      refine ⟨d :: more, ?_⟩
      rw [scanFrom, if_pos hd, hmore, List.reverse_cons, List.append_assoc, List.singleton_append]
    · refine ⟨[], ?_⟩
      rw [scanFrom, if_neg hd, List.append_nil]
      rfl

/-- A pending word that goes on is another first token than one that ends. -/
lemma scanFrom_ne_ofPending_append (c d : Char) (pending cs cs' : List Char) :
    scanFrom (d :: c :: pending) cs ≠ ofPending (c :: pending) ++ scanFrom [d] cs' := by
  intro heq
  obtain ⟨more, hmore⟩ := exists_head?_scanFrom d (c :: pending) cs
  rw [heq, List.reverse_cons, List.append_assoc] at hmore
  exact ofWord_append_ne _ (by simp) (Option.some.inj hmore).symm

/-- A word that goes on without a gap in one of two texts does so in the other one, if the same
tokens are found in both. -/
lemma eq_nil_of_scanFrom {gap' : List Char} (hgap' : ∀ c ∈ gap', Text.isBlank c = true) {c : Char}
    (hc : InWord c) {pending : List Char} (hne : pending ≠ []) {cs cs' : List Char}
    (h : scanFrom pending (c :: cs) = scanFrom pending (gap' ++ c :: cs')) : gap' = [] := by
  by_contra hgap
  obtain ⟨d, pending, rfl⟩ := List.exists_cons_of_ne_nil hne
  rw [scanFrom_cons_word hc, scanFrom_gap_word hgap' hc (.inr hgap)] at h
  exact scanFrom_ne_ofPending_append d c pending cs cs' h

/-- The gaps before the same character are the same if the same tokens are found. -/
lemma sameGap_of_scanFrom {left : Option Char} {gap gap' : List Char}
    (hgap : ∀ c ∈ gap, Text.isBlank c = true) (hgap' : ∀ c ∈ gap', Text.isBlank c = true) {c : Char}
    (hblank : Text.isBlank c = false) {pending : List Char} (hpends : Pends left pending)
    {cs cs' : List Char}
    (h : scanFrom pending (gap ++ c :: cs) = scanFrom pending (gap' ++ c :: cs')) :
    SameGap left (some c) gap gap' := by
  refine ⟨hgap, hgap', ?_⟩
  by_cases hnil : pending = []
  · exact .inl (hpends.free hnil _)
  · by_cases hc : InWord c
    · refine .inr ⟨?_, ?_⟩
      · rintro rfl
        exact eq_nil_of_scanFrom hgap' hc hnil h
      · rintro rfl
        exact eq_nil_of_scanFrom hgap hc hnil h.symm
    · obtain ⟨t, ht⟩ := exists_delimits hblank hc
      exact .inl (.before left ht)

/-- Texts with the same characters up to blanks and with the same tokens differ only in blanks that
do not matter. -/
lemma respacedAfter_of_scanFrom {left : Option Char} {cs cs' bare : List Char}
    (hbare : Text.bareChars cs = bare) (hbare' : Text.bareChars cs' = bare) {pending : List Char}
    (hpends : Pends left pending) (h : scanFrom pending cs = scanFrom pending cs') :
    RespacedAfter left cs cs' := by
  -- on the characters without blanks, which both texts share
  induction bare generalizing left cs cs' pending with
  | nil =>
    have hblanks := Text.bareChars_eq_nil_iff.1 hbare
    have hblanks' := Text.bareChars_eq_nil_iff.1 hbare'
    exact .stop cs cs' ⟨hblanks, hblanks', .inl (.stop left)⟩
  | cons c bare ih =>
    obtain ⟨gap, rest, rfl, hgap, hc, hrest⟩ := Text.exists_gap_of_bareChars hbare
    obtain ⟨gap', rest', rfl, hgap', -, hrest'⟩ := Text.exists_gap_of_bareChars hbare'
    have hsame := sameGap_of_scanFrom hgap hgap' hc hpends h
    obtain ⟨found, pending', hpends', hfound, hfound'⟩ := scanFrom_sameGap hc hsame hpends
    rw [hfound, hfound'] at h
    exact .char gap gap' hc hsame (ih hrest hrest' hpends' (List.append_cancel_left h))

/-! ### Whole texts -/

/-- The blanks in which texts may differ are those that do not matter. -/
lemma respaced_iff {s t : String} :
    Respaced s t ↔ Text.bareChars s.toList = Text.bareChars t.toList ∧ scan s = scan t := by
  constructor
  · intro h
    exact ⟨h.bareChars_eq, scanFrom_respacedAfter h .start⟩
  · rintro ⟨hbare, hscan⟩
    exact respacedAfter_of_scanFrom hbare rfl .start hscan

/-- **Separators.**  A blank between two texts leaves no trace among their tokens, and a delimiter
is a token between those of the one and those of the other.  The words among the tokens of a text
are tag names: they are not empty, they are no operators, and there are no blanks and no delimiters
in them.  Texts that differ only in how many and which blanks there are at places where both have
some, and at places next to delimiters or at the ends, have the same tokens; and no other texts with
the same characters up to blanks do. -/
theorem scan_separators :
    (∀ (s t : String) (c : Char),
      (Text.isBlank c = true → scan (s ++ String.singleton c ++ t) = scan s ++ scan t) ∧
      ∀ d, Delimits c d → scan (s ++ String.singleton c ++ t) = scan s ++ d :: scan t) ∧
    (∀ (s name : String), .word name ∈ scan s → IsTagName name) ∧
    ∀ s t : String, Respaced s t ↔
      Text.bareChars s.toList = Text.bareChars t.toList ∧ scan s = scan t := by
  refine ⟨fun s t c => ⟨?_, ?_⟩, ?_, ?_⟩
  · intro hblank
    exact scan_append_blank hblank s t
  · intro d hd
    exact scan_append_delimiter hd s t
  · intro s name hmem
    exact isTagName_of_mem_scanFrom (by simp) hmem
  · intro s t
    exact respaced_iff

/-- Blanks of another kind, more of them, and some next to a comma and at the beginning. -/
theorem scan_separators_list :
    Text.isBlank '\t' = true ∧
      scan ("dev or" ++ String.singleton '\t' ++ "QA") = scan "dev or" ++ scan "QA" ∧
      Delimits '!' .not ∧
      scan ("dev,Not" ++ String.singleton '!' ++ "QA") = scan "dev,Not" ++ .not :: scan "QA" ∧
      .word "qa" ∈ scan "dev,QA" ∧ IsTagName "qa" ∧
      Respaced "a,b c" " a ,b\t c" ∧ scan "a,b c" = scan " a ,b\t c" ∧
      ¬ Respaced "a,b c" "a,bc" := by
  obtain ⟨hseparate, hwords, hspacing⟩ := scan_separators
  have hblank : Text.isBlank '\t' = true := by decide
  have hmem : .word "qa" ∈ scan "dev,QA" := by decide +kernel
  have hnone : ∀ c ∈ ([] : List Char), Text.isBlank c = true := List.forall_mem_nil _
  have hspace : ∀ c ∈ [' '], Text.isBlank c = true := List.forall_mem_singleton.2 rfl
  have htab : ∀ c ∈ ['\t', ' '], Text.isBlank c = true := List.forall_mem_cons.2 ⟨hblank, hspace⟩
  have hrespaced : Respaced "a,b c" " a ,b\t c" :=
    .char [] [' '] rfl ⟨hnone, hspace, .inl (.start _)⟩ <|
    .char [] [' '] rfl ⟨hnone, hspace, .inl (.before _ .comma)⟩ <|
    .char [] [] rfl ⟨hnone, hnone, .inl (.behind .comma _)⟩ <|
    .char [' '] ['\t', ' '] rfl ⟨hspace, htab, .inr (by simp)⟩ <|
    .stop [] [] ⟨hnone, hnone, .inl (.stop _)⟩
  have hmerged : scan "a,b c" ≠ scan "a,bc" := by decide +kernel
  exact ⟨hblank, (hseparate _ _ _).1 hblank, .not, (hseparate _ _ _).2 _ .not, hmem,
    hwords _ _ hmem, hrespaced, ((hspacing _ _).1 hrespaced).2,
    fun h => hmerged ((hspacing _ _).1 h).2⟩

end Token

end ChangelogParameters
