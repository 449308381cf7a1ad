import ChangelogParameters.Proofs.Text.NormalForm
import ChangelogParameters.Tag.Token
import Mathlib.Data.List.TakeWhile

/-!
# The tokens of a text

The tokens of a text are given by rules: blanks stand for nothing, each delimiter is a token by
itself, and every longest run of other characters is a word, whose lower case decides between
the operators and a tag name.

`lexes_iff_scan` says that scanning a text finds exactly the tokens that the rules derive;
in particular the rules leave no choice.
-/

namespace ChangelogParameters

namespace Token

/-! ### The rules -/

/-- The tokens that are written as a single character. -/
inductive Delimits : Char → Token → Prop
  | leftParen : Delimits '(' .leftParen
  | rightParen : Delimits ')' .rightParen
  | comma : Delimits ',' .comma
  | not : Delimits '!' .not

/-- The token that a lower-cased word stands for. -/
inductive Spells : String → Token → Prop
  | not : Spells "not" .not
  | and : Spells "and" .and
  | or : Spells "or" .or
  | name {n : String} (hnot : n ≠ "not") (hand : n ≠ "and") (hor : n ≠ "or") :
      Spells n (.word n)

/-- The characters of words: neither blank nor a delimiter. -/
def InWord (c : Char) : Prop :=
  Text.isBlank c = false ∧ ∀ t, ¬ Delimits c t

/-- The tokens of a text. -/
inductive Lexes : List Char → List Token → Prop
  | nil : Lexes [] []
  /-- A blank stands for nothing. -/
  | blank {c : Char} {cs : List Char} {ts : List Token} (hc : Text.isBlank c = true)
      (h : Lexes cs ts) : Lexes (c :: cs) ts
  /-- A delimiter is a token. -/
  | delimiter {c : Char} {t : Token} {cs : List Char} {ts : List Token} (hc : Delimits c t)
      (h : Lexes cs ts) : Lexes (c :: cs) (t :: ts)
  /-- A word that cannot be made longer is a token. -/
  | word {w cs : List Char} {t : Token} {ts : List Token} (hne : w ≠ [])
      (hw : ∀ c ∈ w, InWord c) (hmax : ∀ c ∈ cs.head?, ¬ InWord c)
      (ht : Spells (String.ofList (Text.lowerChars w)) t) (h : Lexes cs ts) :
      Lexes (w ++ cs) (t :: ts)

/-! ### Characters and words -/

/-- A delimiter is written as its character. -/
lemma ofDelimiter?_eq_some_iff {c : Char} {t : Token} : ofDelimiter? c = some t ↔ Delimits c t := by
  constructor
  · intro h
    unfold ofDelimiter? at h
    split at h <;> cases h
    · exact .leftParen
    · exact .rightParen
    · exact .comma
    · exact .not
  · rintro (_ | _ | _ | _) <;> rfl

/-- The characters that a word is continued by are those of words. -/
lemma isWordChar_iff {c : Char} : isWordChar c = true ↔ InWord c := by
  simp only [isWordChar, InWord, Bool.and_eq_true, Bool.not_eq_true', Option.isNone_iff_eq_none,
    ← ofDelimiter?_eq_some_iff, Option.eq_none_iff_forall_ne_some]

lemma isWordChar_eq_false_iff {c : Char} : isWordChar c = false ↔ ¬ InWord c := by
  rw [← isWordChar_iff, Bool.not_eq_true]

/-- A delimiter is not blank. -/
lemma isBlank_of_delimits {c : Char} {t : Token} (h : Delimits c t) : Text.isBlank c = false := by
  cases h <;> decide

/-- A blank is not a delimiter. -/
lemma ofDelimiter?_of_isBlank {c : Char} (h : Text.isBlank c = true) : ofDelimiter? c = none := by
  rw [Option.eq_none_iff_forall_ne_some]
  intro t ht
  have hnot := isBlank_of_delimits (ofDelimiter?_eq_some_iff.1 ht)
  rw [h] at hnot
  cases hnot

/-- No word is continued by a blank. -/
lemma isWordChar_of_isBlank {c : Char} (h : Text.isBlank c = true) : isWordChar c = false := by
  simp [isWordChar, h]

/-- No word is continued by a delimiter. -/
lemma isWordChar_of_delimits {c : Char} {t : Token} (h : Delimits c t) : isWordChar c = false := by
  simp [isWordChar, ofDelimiter?_eq_some_iff.2 h]

/-- The token of a word is the one that its lower case stands for. -/
lemma ofWord_eq_iff {w : List Char} {t : Token} :
    ofWord w = t ↔ Spells (String.ofList (Text.lowerChars w)) t := by
  generalize hlower : String.ofList (Text.lowerChars w) = lower
  unfold ofWord
  rw [hlower]
  constructor
  · rintro rfl
    split
    · exact .and
    · exact .or
    · exact .not
    · exact .name ‹_› ‹_› ‹_›
  · rintro (_ | _ | _ | ⟨hnot, hand, hor⟩)
    · rfl
    · rfl
    · rfl
    · split <;> first | rfl | contradiction

/-! ### Scanning follows the rules -/

/-- Scanning adds the characters of a word to the pending one. -/
lemma scanFrom_word {w : List Char} (hw : ∀ c ∈ w, isWordChar c = true)
    (pending cs : List Char) : scanFrom pending (w ++ cs) = scanFrom (w.reverse ++ pending) cs := by
  induction w generalizing pending with
  | nil => rfl
  | cons c w ih =>
    have hc : isWordChar c = true := hw c (by simp)
    have hrest := ih (fun c hmem => hw c (by simp [hmem])) (c :: pending)
    simp [scanFrom, hc, hrest]

/-- A pending word ends where no character continues it. -/
lemma scanFrom_of_stop {cs : List Char} (h : ∀ c ∈ cs.head?, isWordChar c = false)
    (pending : List Char) : scanFrom pending cs = ofPending pending ++ scanFrom [] cs := by
  cases cs with
  | nil => simp [scanFrom, ofPending]
  | cons c cs =>
    have hc : isWordChar c = false := h c (by simp)
    simp [scanFrom, hc, ofPending]

/-- A pending word is the word that its characters make up. -/
lemma ofPending_reverse {w : List Char} (hne : w ≠ []) : ofPending w.reverse = [ofWord w] := by
  unfold ofPending
  split
  case h_1 hrev => exact absurd (List.reverse_eq_nil_iff.1 hrev) hne
  case h_2 => rw [List.reverse_reverse]

/-- Scanning a word that cannot be made longer finds its token. -/
lemma scanFrom_maximal_word {w cs : List Char} (hne : w ≠ [])
    (hw : ∀ c ∈ w, isWordChar c = true) (hmax : ∀ c ∈ cs.head?, isWordChar c = false) :
    scanFrom [] (w ++ cs) = ofWord w :: scanFrom [] cs := by
  rw [scanFrom_word hw, scanFrom_of_stop hmax, List.append_nil, ofPending_reverse hne]
  rfl

/-- A text can be scanned in two parts if no word goes on where it is cut. -/
lemma scanFrom_append {cs : List Char} (h : ∀ c ∈ cs.head?, isWordChar c = false)
    (pending text : List Char) :
    scanFrom pending (text ++ cs) = scanFrom pending text ++ scanFrom [] cs := by
  induction text generalizing pending with
  | nil => exact scanFrom_of_stop h pending
  | cons c text ih =>
    by_cases hc : isWordChar c = true
    · simp [scanFrom, hc, ih]
    · simp [scanFrom, hc, ih]

/-- A delimiter ends the pending word and is a token. -/
lemma scanFrom_cons_of_delimits {c : Char} {t : Token} (hc : Delimits c t)
    (pending cs : List Char) :
    scanFrom pending (c :: cs) = ofPending pending ++ t :: scanFrom [] cs := by
  simp [scanFrom, isWordChar_of_delimits hc, ofDelimiter?_eq_some_iff.2 hc]

/-- A character that is in no word separates the tokens before it from those behind it. -/
lemma scanFrom_append_cons {c : Char} (hc : isWordChar c = false) (pending text cs : List Char) :
    scanFrom pending (text ++ c :: cs) =
      scanFrom pending text ++ ((ofDelimiter? c).toList ++ scanFrom [] cs) := by
  have hstop : ∀ c' ∈ (c :: cs).head?, isWordChar c' = false := by simpa using hc
  rw [scanFrom_append hstop]
  simp [scanFrom, hc, ofPending]

/-- Scanning finds the tokens that the rules derive. -/
lemma scanFrom_of_lexes {cs : List Char} {ts : List Token} (h : Lexes cs ts) :
    scanFrom [] cs = ts := by
  induction h with
  | nil => rfl
  | blank hc _ ih =>
    simp [scanFrom, isWordChar_of_isBlank hc, ofDelimiter?_of_isBlank hc, ofPending, ih]
  | delimiter hc _ ih => rw [scanFrom_cons_of_delimits hc, ih, ofPending, List.nil_append]
  | word hne hw hmax ht _ ih =>
    rw [scanFrom_maximal_word hne (fun c hmem => isWordChar_iff.2 (hw c hmem))
      (fun c hmem => isWordChar_eq_false_iff.2 (hmax c hmem)), ofWord_eq_iff.2 ht, ih]

/-- A text that is a single word is scanned as the token of its lower case. -/
lemma scan_of_inWord {s : String} {t : Token} (hne : s ≠ "") (hw : ∀ c ∈ s.toList, InWord c)
    (ht : Spells (Text.lower s) t) : scan s = [t] := by
  have hnil : s.toList ≠ [] := fun hnil => hne (String.toList_eq_nil_iff.1 hnil)
  have hlexes : Lexes (s.toList ++ []) [t] := .word hnil hw (by simp) ht .nil
  rw [List.append_nil] at hlexes
  exact scanFrom_of_lexes hlexes

/-- A text that begins with a character of a word begins with a word that cannot be made
longer. -/
lemma exists_maximal_word {c : Char} (hc : isWordChar c = true) (cs : List Char) :
    ∃ w rest, c :: cs = w ++ rest ∧ w ≠ [] ∧ (∀ c' ∈ w, isWordChar c' = true) ∧
      (∀ c' ∈ rest.head?, isWordChar c' = false) ∧ rest.length < (c :: cs).length := by
  refine ⟨(c :: cs).takeWhile isWordChar, (c :: cs).dropWhile isWordChar,
    List.takeWhile_append_dropWhile.symm, ?_, fun c' hmem => List.mem_takeWhile_imp hmem, ?_, ?_⟩
  · simp [hc]
  · intro c' hmem
    have hstop := List.head?_dropWhile_not isWordChar (c :: cs)
    rwa [Option.mem_def.1 hmem] at hstop
  · rw [List.dropWhile_cons_of_pos hc, List.length_cons]
    exact Nat.lt_succ_of_le (List.length_dropWhile_le isWordChar cs)

/-- The rules derive the tokens that scanning finds. -/
lemma lexes_scanFrom (cs : List Char) : Lexes cs (scanFrom [] cs) := by
  cases cs with
  | nil => exact .nil
  | cons c cs =>
    by_cases hc : isWordChar c = true
    · obtain ⟨w, rest, hsplit, hne, hw, hmax, hshorter⟩ := exists_maximal_word hc cs
      have hrest := lexes_scanFrom rest
      rw [hsplit, scanFrom_maximal_word hne hw hmax]
      exact .word hne (fun c' hmem => isWordChar_iff.1 (hw c' hmem))
        (fun c' hmem => isWordChar_eq_false_iff.1 (hmax c' hmem)) (ofWord_eq_iff.1 rfl) hrest
    · have hrest := lexes_scanFrom cs
      rw [scanFrom, if_neg hc, ofPending, List.nil_append]
      cases hdelimiter : ofDelimiter? c with
      | some t => exact .delimiter (ofDelimiter?_eq_some_iff.1 hdelimiter) hrest
      | none =>
        have hblank : Text.isBlank c = true := by simpa [isWordChar, hdelimiter] using hc
        exact .blank hblank hrest
termination_by cs.length
decreasing_by
  · exact hshorter
  · exact Nat.lt_succ_self _

/-- A text has a beginning for every beginning of its tokens. -/
lemma Lexes.exists_append {cs : List Char} {before after : List Token}
    (h : Lexes cs (before ++ after)) :
    ∃ cs₁ cs₂, cs₁ ++ cs₂ = cs ∧ Lexes cs₁ before ∧ Lexes cs₂ after := by
  generalize hts : before ++ after = ts at h
  induction h generalizing before with
  | nil =>
    obtain ⟨rfl, rfl⟩ := List.append_eq_nil_iff.1 hts
    exact ⟨[], [], rfl, .nil, .nil⟩
  | @blank c cs ts hc h ih =>
    obtain ⟨cs₁, cs₂, rfl, hbefore, hafter⟩ := ih hts
    exact ⟨c :: cs₁, cs₂, rfl, .blank hc hbefore, hafter⟩
  | @delimiter c t cs ts hc h ih =>
    cases before with
    | nil =>
      obtain rfl : after = t :: ts := hts
      exact ⟨[], c :: cs, rfl, .nil, .delimiter hc h⟩
    | cons t' before =>
      obtain ⟨rfl, hrest⟩ := List.cons.inj hts
      obtain ⟨cs₁, cs₂, rfl, hbefore, hafter⟩ := ih hrest
      exact ⟨c :: cs₁, cs₂, rfl, .delimiter hc hbefore, hafter⟩
  | @word w cs t ts hne hw hmax ht h ih =>
    cases before with
    | nil =>
      obtain rfl : after = t :: ts := hts
      exact ⟨[], w ++ cs, rfl, .nil, .word hne hw hmax ht h⟩
    | cons t' before =>
      obtain ⟨rfl, hrest⟩ := List.cons.inj hts
      obtain ⟨cs₁, cs₂, rfl, hbefore, hafter⟩ := ih hrest
      -- the word ends where it did, or with the beginning
      have hstop : ∀ c ∈ cs₁.head?, ¬ InWord c := by
        cases cs₁ with
        | nil => simp
        | cons c cs₁ => exact hmax
      exact ⟨w ++ cs₁, cs₂, List.append_assoc .., .word hne hw hstop ht hbefore, hafter⟩

/-! ### Blanks at the ends -/

/-- There are no tokens in blanks, so blanks in front of a text have no influence on its tokens. -/
lemma scanFrom_blanks_append {blanks : List Char} (h : ∀ c ∈ blanks, Text.isBlank c = true)
    (cs : List Char) : scanFrom [] (blanks ++ cs) = scanFrom [] cs := by
  induction blanks with
  | nil => rfl
  | cons c blanks ih =>
    have hc : Text.isBlank c = true := h c (by simp)
    have hrest := ih fun c' hc' => h c' (by simp [hc'])
    have hlexes : Lexes (c :: (blanks ++ cs)) (scanFrom [] (blanks ++ cs)) :=
      .blank hc (lexes_scanFrom (blanks ++ cs))
    rw [List.cons_append, scanFrom_of_lexes hlexes, hrest]

/-- No word goes on where blanks begin. -/
lemma isWordChar_of_mem_head?_blanks {blanks : List Char}
    (h : ∀ c ∈ blanks, Text.isBlank c = true) : ∀ c ∈ blanks.head?, isWordChar c = false :=
  fun c hc => isWordChar_of_isBlank (h c (List.mem_of_head? hc))

/-- Blanks alone have no tokens. -/
lemma scanFrom_blanks {blanks : List Char} (h : ∀ c ∈ blanks, Text.isBlank c = true) :
    scanFrom [] blanks = [] := by
  have hall := scanFrom_blanks_append h []
  rwa [List.append_nil] at hall

/-- Blanks end the pending word. -/
lemma scanFrom_pending_blanks {blanks : List Char} (h : ∀ c ∈ blanks, Text.isBlank c = true)
    (pending : List Char) : scanFrom pending blanks = ofPending pending := by
  rw [scanFrom_of_stop (isWordChar_of_mem_head?_blanks h), scanFrom_blanks h, List.append_nil]

/-- A text is scanned from its first character on. -/
lemma scan_eq (s : String) : scan s = scanFrom [] s.toList := rfl

/-- A text has the same tokens when it is trimmed. -/
lemma scan_trim (s : String) : scan (Text.trim s) = scan s := by
  obtain ⟨before, after, hsplit, hbefore, hafter⟩ := Text.exists_blanks_trimChars s.toList
  have hscan : scan s = scanFrom [] (before ++ (Text.trimChars s.toList ++ after)) := by
    rw [scan_eq, ← List.append_assoc, ← hsplit]
  rw [hscan, scanFrom_blanks_append hbefore,
    scanFrom_append (isWordChar_of_mem_head?_blanks hafter), scanFrom_blanks hafter,
    List.append_nil, scan_eq, Text.toList_trim]

/-! ### Separators between texts -/

/-- A blank between two texts leaves no trace among their tokens. -/
lemma scan_append_blank {c : Char} (hc : Text.isBlank c = true) (s t : String) :
    scan (s ++ String.singleton c ++ t) = scan s ++ scan t := by
  have hchars : (s ++ String.singleton c ++ t).toList = s.toList ++ c :: t.toList := by simp
  rw [scan_eq, hchars, scanFrom_append_cons (isWordChar_of_isBlank hc), ofDelimiter?_of_isBlank hc]
  rfl

/-- A delimiter between two texts is a token between their tokens. -/
lemma scan_append_delimiter {c : Char} {d : Token} (hc : Delimits c d) (s t : String) :
    scan (s ++ String.singleton c ++ t) = scan s ++ d :: scan t := by
  have hchars : (s ++ String.singleton c ++ t).toList = s.toList ++ c :: t.toList := by simp
  rw [scan_eq, hchars, scanFrom_append_cons (isWordChar_of_delimits hc),
    ofDelimiter?_eq_some_iff.2 hc]
  rfl

/-! ### All tokens of a text -/

/-- **The tokens of a text.**  Scanning a text finds the tokens that the rules derive, and the
rules derive no others. -/
lemma lexes_iff_scan {s : String} {ts : List Token} : Lexes s.toList ts ↔ ts = scan s := by
  constructor
  · intro h
    exact (scanFrom_of_lexes h).symm
  · rintro rfl
    exact lexes_scanFrom s.toList

end Token

end ChangelogParameters
