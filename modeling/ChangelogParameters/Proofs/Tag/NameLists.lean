import ChangelogParameters.Parameter.Filter
import ChangelogParameters.Proofs.Parameter.NormalForm
import ChangelogParameters.Proofs.Tag.Connectives

/-!
# Lists of names

A comma separated text is read in two ways.  As a set of names it is cut at the commas, and the
pieces are trimmed and lower-cased.  As a condition it is scanned for words, which are lower-cased
too, and the words are read by the grammar.  If every piece is a single word and no operator, both
ways find the same names (`scan_of_isPlainWord`), and the condition is the list of them: it holds
over a set that has one of them as a member, and over the empty set.
-/

namespace ChangelogParameters

namespace Token

/-! ### Tokens of lists of words -/

/-- A text that is a single word and no operator. -/
structure IsPlainWord (word : String) : Prop where
  ne_empty : word ≠ ""
  bare : ∀ c ∈ word.toList, Text.isBlank c = false ∧ c ∉ ['(', ')', '!']
  not_operator : Text.lower word ∉ ["and", "or", "not"]

instance (word : String) : Decidable (IsPlainWord word) :=
  -- the characters of the word are gone through, and not all characters that there are
  letI : Decidable (∀ c ∈ word.toList, Text.isBlank c = false ∧ c ∉ ['(', ')', '!']) :=
    List.decidableBAll _ _
  decidable_of_iff (word ≠ "" ∧ (∀ c ∈ word.toList, Text.isBlank c = false ∧ c ∉ ['(', ')', '!']) ∧
      Text.lower word ∉ ["and", "or", "not"])
    ⟨fun ⟨hne, hbare, hoperator⟩ => ⟨hne, hbare, hoperator⟩,
      fun ⟨hne, hbare, hoperator⟩ => ⟨hne, hbare, hoperator⟩⟩

/-- A plain word between blanks, with no comma in it, has a single token: the name that it stands
for in a set of names. -/
lemma scan_of_isPlainWord {text : String} (h : IsPlainWord (Text.trim text))
    (hcomma : ',' ∉ text.toList) : scan text = [.word (Names.normalize text)] := by
  obtain ⟨hne, hbare, hoperator⟩ := h
  have hword : ∀ c ∈ (Text.trim text).toList, InWord c := by
    intro c hc
    obtain ⟨hblank, hdelimiter⟩ := hbare c hc
    refine ⟨hblank, ?_⟩
    rintro t (_ | _ | _ | _)
    · exact hdelimiter (by simp)
    · exact hdelimiter (by simp)
    · rw [Text.toList_trim] at hc
      exact hcomma (Text.mem_of_mem_trimChars hc)
    · exact hdelimiter (by simp)
  simp only [List.mem_cons, List.not_mem_nil, or_false, not_or] at hoperator
  obtain ⟨hand, hor, hnot⟩ := hoperator
  rw [← scan_trim]
  exact scan_of_inWord hne hword (.name hnot hand hor)

/-- A comma between two texts is a token between their tokens. -/
lemma scan_comma (x y : String) : scan (x ++ "," ++ y) = scan x ++ .comma :: scan y :=
  scan_append_delimiter .comma x y

end Token

namespace Expr

/-- The token of a word is a list of the grammar, which holds exactly over the sets with the
word. -/
lemma Phrase.exists_word {text : String} (hword : Token.IsPlainWord (Text.trim text))
    (hcomma : ',' ∉ text.toList) :
    ∃ p : Phrase .list, p.tokens = Token.scan text ∧
      ∀ names, p.expr.evaluate names = true ↔ Names.normalize text ∈ names.toList := by
  refine ⟨.ofTerm (.name (Names.normalize text)), ?_, fun names => ?_⟩
  · rw [tokens_ofTerm, Term.tokens, Token.scan_of_isPlainWord hword hcomma]
  · rw [expr_ofTerm, Term.expr, evaluate, Names.holds_iff]

/-- The tokens of words with commas between them are a list of the grammar, which holds exactly over
the sets with one of the words. -/
lemma Phrase.exists_words {first : String} {rest : List String}
    (hwords : ∀ text ∈ first :: rest, Token.IsPlainWord (Text.trim text))
    (hcommas : ∀ text ∈ first :: rest, ',' ∉ text.toList) :
    ∃ p : Phrase .list, p.tokens = Token.scan (",".intercalate (first :: rest)) ∧
      ∀ names, p.expr.evaluate names = true ↔
        ∃ text ∈ first :: rest, Names.normalize text ∈ names.toList := by
  induction rest generalizing first with
  | nil =>
    obtain ⟨p, hp, htruth⟩ := exists_word (hwords first (by simp)) (hcommas first (by simp))
    refine ⟨p, ?_, fun names => ?_⟩
    · rw [hp, String.intercalate_singleton]
    · simp [htruth]
  | cons next rest ih =>
    obtain ⟨p, hp, htruth⟩ := exists_word (hwords first (by simp)) (hcommas first (by simp))
    have hwords' : ∀ text ∈ next :: rest, Token.IsPlainWord (Text.trim text) :=
      fun text hmem => hwords text (List.mem_cons_of_mem first hmem)
    have hcommas' : ∀ text ∈ next :: rest, ',' ∉ text.toList :=
      fun text hmem => hcommas text (List.mem_cons_of_mem first hmem)
    obtain ⟨q, hq, hqtruth⟩ := ih hwords' hcommas'
    obtain ⟨both, hboth, hbothtruth⟩ := p.exists_comma q
    refine ⟨both, ?_, fun names => ?_⟩
    · rw [hboth, hp, hq, String.intercalate_cons_cons, Token.scan_comma]
    · rw [hbothtruth, Bool.or_eq_true, htruth, hqtruth, List.exists_mem_cons_iff _ first]

end Expr

namespace Names

/-- There is a name that both sets have as a member. -/
def Meets (names others : Names) : Prop :=
  ∃ name ∈ names.toList, name ∈ others.toList

/-- A set meets the set of names in a text whose pieces are words exactly if one of these is a
member of it. -/
lemma meets_parse_iff {names : Names} {s : String}
    (hwords : ∀ piece ∈ Text.commaSeparated s, Token.IsPlainWord (Text.trim piece)) :
    names.Meets (parse s) ↔ ∃ piece ∈ Text.commaSeparated s, normalize piece ∈ names.toList := by
  simp only [Meets, parse, mem_ofTexts]
  constructor
  · rintro ⟨_, hmem, -, piece, hpiece, rfl⟩
    exact ⟨piece, hpiece, hmem⟩
  · rintro ⟨piece, hpiece, hmem⟩
    have hne : normalize piece ≠ "" := fun hempty =>
      (hwords piece hpiece).ne_empty (Text.lower_eq_empty_iff.1 hempty)
    exact ⟨normalize piece, hmem, hne, piece, hpiece, rfl⟩

end Names

namespace Condition

/-! ### Conditions of lists of words -/

/-- **Lists of names.**  Let every piece of a text between commas be a word without blanks,
parentheses and exclamation marks in it, when it is trimmed, and no operator.  Then the text is that
of a condition, which holds over a set of names exactly if the set is empty or has a name in common
with the set of the names in the text.  This goes for the contexts of a run, where the condition is
that of a parameter, and for the labels of a parameter, where it is that of a run. -/
theorem matchesNames_nameList {s : String}
    (hwords : ∀ piece ∈ Text.commaSeparated s, Token.IsPlainWord (Text.trim piece)) :
    ∃ condition, parse s = .ok condition ∧ ∀ names : Names,
      (condition.matchesNames names = true ↔
        names.isEmpty = true ∨ names.Meets (Names.parse s)) ∧
      ∀ filter : Filter,
        (filter.contexts = some names → (filter.allowsContexts condition = true ↔
          names.isEmpty = true ∨ names.Meets (Names.parse s))) ∧
        (filter.labels = some condition → (filter.allowsLabels names = true ↔
          names.isEmpty = true ∨ names.Meets (Names.parse s))) := by
  have hne : Text.commaSeparated s ≠ [] := by
    simpa [Text.commaSeparated] using Text.pieces_ne_nil ',' s.toList
  obtain ⟨first, rest, hpieces⟩ := List.exists_cons_of_ne_nil hne
  have hcommas : ∀ piece ∈ Text.commaSeparated s, ',' ∉ piece.toList :=
    fun _ hmem => Text.comma_not_mem_of_mem_commaSeparated hmem
  obtain ⟨p, hp, htruth⟩ := Expr.Phrase.exists_words (hpieces ▸ hwords) (hpieces ▸ hcommas)
  rw [← hpieces] at hp htruth
  rw [Text.intercalate_commaSeparated] at hp
  refine ⟨_, parse_of_tokens hp, fun names => ?_⟩
  have hmatches : Condition.matchesNames ⟨Text.trim s, some p.expr⟩ names = true ↔
      names.isEmpty = true ∨ names.Meets (Names.parse s) := by
    rw [matchesNames, Bool.or_eq_true, htruth, Names.meets_parse_iff hwords]
  refine ⟨hmatches, fun filter => ⟨fun hcontexts => ?_, fun hlabels => ?_⟩⟩
  · rw [Filter.allowsContexts, hcontexts]
    exact hmatches
  · rw [Filter.allowsLabels, hlabels]
    exact hmatches

/-- A name that stands twice in the list, once with a capital. -/
theorem matchesNames_nameList_dev :
    ∃ condition, parse "Dev, QA,dev" = .ok condition ∧
      condition.matchesNames (Names.parse "prod,qa") = true ∧
      condition.matchesNames (Names.parse "prod") = false ∧
      condition.matchesNames ∅ = true ∧
      Filter.allowsLabels ⟨none, some condition, none⟩ (Names.parse "DEV") = true := by
  have hwords : ∀ piece ∈ Text.commaSeparated "Dev, QA,dev",
      Token.IsPlainWord (Text.trim piece) := by decide +kernel
  obtain ⟨condition, hparse, hmatches⟩ := matchesNames_nameList hwords
  refine ⟨condition, hparse, (hmatches _).1.2 (.inr ⟨"qa", ?_⟩), ?_, (hmatches ∅).1.2 (.inl rfl),
    (((hmatches _).2 _).2 rfl).2 (.inr ⟨"dev", ?_⟩)⟩
  · decide +kernel
  · rw [Bool.eq_false_iff, ne_eq, (hmatches _).1]
    unfold Names.Meets
    decide +kernel
  · decide +kernel

end Condition

end ChangelogParameters
