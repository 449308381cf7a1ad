import ChangelogParameters.Proofs.Tag.Reading
import ChangelogParameters.Proofs.Text.Lowered

/-!
# Writing tag expressions

A well-formed expression has tag names at its leaves, and every conjunction and disjunction in it
has at least two operands.  These are exactly the expressions that reading a text can yield, and
they are exactly the ones that are read back when they are written.

An expression is written with parentheses around every conjunction and disjunction, so it is always
the text of a term of the grammar.  The derivation of that term follows the expression: a
conjunction or a disjunction is a group with a single chain of terms in it, and the levels of the
grammar above the chain have one operand each, so that they leave no trace in what the group means.
-/

namespace ChangelogParameters

/-! ### Tag names -/

/-- A name that can stand in a tag expression: it has characters, all of them are characters of
words, it is in lower case, and it is no operator. -/
structure IsTagName (n : String) : Prop where
  ne_empty : n ≠ ""
  inWord : ∀ c ∈ n.toList, Token.InWord c
  lower : Text.lower n = n
  ne_not : n ≠ "not"
  ne_and : n ≠ "and"
  ne_or : n ≠ "or"

namespace Token

/-- The characters in the blocks of letters are characters of words. -/
lemma inWord_of_inLetterBlock {c : Char} (h : Text.InLetterBlock c.toNat) : InWord c := by
  refine ⟨Text.isBlank_of_inLetterBlock h, ?_⟩
  intro t ht
  cases ht <;> exact absurd h (by decide)

/-- The lower case of a character of words consists of such characters. -/
lemma inWord_of_mem_lowerChars {w : List Char} (hw : ∀ c ∈ w, InWord c) :
    ∀ c ∈ Text.lowerChars w, InWord c := by
  intro c hc
  rcases Text.mem_or_inLetterBlock_of_mem_lowerChars hc with hmem | hblock
  · exact hw c hmem
  · exact inWord_of_inLetterBlock hblock

/-- A word that is no operator is a tag name. -/
lemma isTagName_of_ofWord {w : List Char} {n : String} (hne : w ≠ []) (hw : ∀ c ∈ w, InWord c)
    (h : ofWord w = .word n) : IsTagName n := by
  have hspells := ofWord_eq_iff.1 h
  generalize hn : String.ofList (Text.lowerChars w) = lowered at hspells
  cases hspells with
  | name hnot hand hor =>
    subst hn
    refine ⟨?_, ?_, ?_, hnot, hand, hor⟩
    · intro hempty
      have hnil : Text.lowerChars w = [] := by simpa using congrArg String.toList hempty
      exact hne (Text.lowerChars_eq_nil_iff.1 hnil)
    · intro c hc
      rw [String.toList_ofList] at hc
      exact inWord_of_mem_lowerChars hw c hc
    · have hlower : String.ofList (Text.lowerChars w) = Text.lower (String.ofList w) := by
        rw [Text.lower, String.toList_ofList]
      rw [hlower, Text.lower_lower]

/-- The words among the tokens of a text are tag names. -/
lemma isTagName_of_mem_scanFrom {pending cs : List Char} {n : String}
    (hpending : ∀ c ∈ pending, InWord c) (h : .word n ∈ scanFrom pending cs) : IsTagName n := by
  have hword : ∀ pending : List Char, (∀ c ∈ pending, InWord c) →
      .word n ∈ ofPending pending → IsTagName n := by
    intro pending hpending hmem
    cases pending with
    | nil => simp [ofPending] at hmem
    | cons c pending =>
      have hne : (c :: pending).reverse ≠ [] := by simp
      have heq : ofWord (c :: pending).reverse = .word n := (List.mem_singleton.1 hmem).symm
      refine isTagName_of_ofWord hne ?_ heq
      intro c' hc'
      exact hpending c' (List.mem_reverse.1 hc')
  induction cs generalizing pending with
  | nil => exact hword pending hpending h
  | cons c cs ih =>
    rw [scanFrom] at h
    split at h
    case isTrue hc =>
      exact ih (List.forall_mem_cons.2 ⟨isWordChar_iff.1 hc, hpending⟩) h
    case isFalse =>
      rw [List.append_assoc, List.mem_append, List.mem_append] at h
      rcases h with hend | hdelimiter | hrest
      · exact hword pending hpending hend
      · have hdelimits := ofDelimiter?_eq_some_iff.1 (Option.mem_toList.1 hdelimiter)
        cases hdelimits
      · exact ih (by simp) hrest

/-- A tag name is the word that it is scanned as. -/
lemma scan_of_isTagName {n : String} (h : IsTagName n) : scan n = [.word n] := by
  refine scan_of_inWord h.ne_empty h.inWord ?_
  rw [h.lower]
  exact .name h.ne_not h.ne_and h.ne_or

end Token

namespace Expr

/-! ### Well-formed expressions -/

/-- The expressions that can be written and read. -/
inductive WellFormed : Expr → Prop
  | name {n : String} (hn : IsTagName n) : WellFormed (.name n)
  | not {e : Expr} (he : WellFormed e) : WellFormed (.not e)
  | and {es : List Expr} (htwo : 2 ≤ es.length) (hes : ∀ e ∈ es, WellFormed e) :
      WellFormed (.and es)
  | or {es : List Expr} (htwo : 2 ≤ es.length) (hes : ∀ e ∈ es, WellFormed e) :
      WellFormed (.or es)

/-- Combining well-formed operands makes a well-formed expression. -/
lemma wellFormed_combine (level : Level) {e : Expr} {es : List Expr} (he : WellFormed e)
    (hes : ∀ e' ∈ es, WellFormed e') : WellFormed (level.combine e es) := by
  have hall : ∀ e' ∈ e :: es, WellFormed e' := List.forall_mem_cons.2 ⟨he, hes⟩
  cases es with
  | nil => cases level <;> exact he
  | cons e' es =>
    have htwo : 2 ≤ (e :: e' :: es).length := by simp
    cases level with
    | list => exact .or htwo hall
    | disjunction => exact .or htwo hall
    | conjunction => exact .and htwo hall

mutual

/-- A phrase over tag names means a well-formed expression. -/
lemma Phrase.wellFormed {level : Level} : ∀ p : Phrase level,
    (∀ n, .word n ∈ p.tokens → IsTagName n) → p.expr.WellFormed
  | .mk first more, h => by
    simp only [Phrase.tokens, List.mem_append] at h
    rw [Phrase.expr]
    have hfirst := first.wellFormed fun n hn => h n (.inl hn)
    have hmore := more.wellFormed fun n hn => h n (.inr hn)
    exact wellFormed_combine level hfirst hmore
termination_by structural p => p

/-- Further operands over tag names mean well-formed expressions. -/
lemma Operands.wellFormed {level : Level} : ∀ more : Operands level,
    (∀ n, .word n ∈ more.tokens → IsTagName n) → ∀ e ∈ more.exprs, e.WellFormed
  | .nil, _ => by simp [Operands.exprs]
  | .cons next more, h => by
    simp only [Operands.tokens, List.mem_cons, List.mem_append] at h
    rw [Operands.exprs]
    have hnext := next.wellFormed fun n hn => h n (.inr (.inl hn))
    have hmore := more.wellFormed fun n hn => h n (.inr (.inr hn))
    exact List.forall_mem_cons.2 ⟨hnext, hmore⟩
termination_by structural more => more

/-- An operand over tag names means a well-formed expression. -/
lemma Operand.wellFormed {level : Level} : ∀ o : Operand level,
    (∀ n, .word n ∈ o.tokens → IsTagName n) → o.expr.WellFormed
  | .disjunction p, h => p.wellFormed h
  | .conjunction p, h => p.wellFormed h
  | .term t, h => t.wellFormed h
termination_by structural o => o

/-- A term over tag names means a well-formed expression. -/
lemma Term.wellFormed : ∀ t : Term,
    (∀ n, .word n ∈ t.tokens → IsTagName n) → t.expr.WellFormed
  | .name n, h => .name (h n (by simp [Term.tokens]))
  | .group p, h => by
    rw [Term.expr]
    exact p.wellFormed fun n hn => h n (by simp [Term.tokens, hn])
  | .not t, h => by
    rw [Term.expr]
    exact .not (t.wellFormed fun n hn => h n (by simp [Term.tokens, hn]))
termination_by structural t => t

end

/-- What is read from a text is well formed. -/
lemma wellFormed_of_parse {s : String} {e : Expr} (h : parse s = .ok (some e)) :
    e.WellFormed := by
  obtain ⟨p, hp, rfl⟩ := parse_eq_some_iff.1 h
  refine p.wellFormed fun n hn => ?_
  rw [hp] at hn
  exact Token.isTagName_of_mem_scanFrom (by simp) hn

/-! ### Terms in the levels of the grammar -/

/-- A term as an operand of a level. -/
def Operand.ofTerm (t : Term) : (level : Level) → Operand level
  | .list => .disjunction (.mk (.conjunction (.mk (.term t) .nil)) .nil)
  | .disjunction => .conjunction (.mk (.term t) .nil)
  | .conjunction => .term t

@[simp] lemma Operand.tokens_ofTerm (t : Term) (level : Level) :
    (Operand.ofTerm t level).tokens = t.tokens := by
  cases level <;> simp [Operand.ofTerm, Operand.tokens, Phrase.tokens, Operands.tokens]

@[simp] lemma Operand.expr_ofTerm (t : Term) (level : Level) :
    (Operand.ofTerm t level).expr = t.expr := by
  cases level <;> simp [Operand.ofTerm, Operand.expr, Phrase.expr, Operands.exprs, Level.combine]

/-- A phrase of any level as a list. -/
def Phrase.asList : {level : Level} → Phrase level → Phrase .list
  | .list, p => p
  | .disjunction, p => .mk (.disjunction p) .nil
  | .conjunction, p => .mk (.disjunction (.mk (.conjunction p) .nil)) .nil

@[simp] lemma Phrase.tokens_asList {level : Level} (p : Phrase level) :
    p.asList.tokens = p.tokens := by
  cases level <;> simp [Phrase.asList, Operand.tokens, Phrase.tokens, Operands.tokens]

@[simp] lemma Phrase.expr_asList {level : Level} (p : Phrase level) : p.asList.expr = p.expr := by
  cases level <;>
    simp [Phrase.asList, Operand.expr, Phrase.expr, Operands.exprs, Level.combine]

/-! ### Written expressions -/

/-- How the joint of a level is written between two operands. -/
def Level.joinText : Level → String
  | .list => ", "
  | .disjunction => " or "
  | .conjunction => " and "

/-- How operands are written in parentheses. -/
def Level.groupText (level : Level) (es : List Expr) : String :=
  "(" ++ level.joinText.intercalate (texts es) ++ ")"

/-- How further operands are written, each behind a joint. -/
def Level.moreText (level : Level) (es : List Expr) : List Char :=
  es.flatMap fun e => level.joinText.toList ++ e.text.toList

/-- A group is its first operand and the further ones in parentheses. -/
lemma Level.toList_groupText (level : Level) (e : Expr) (es : List Expr) :
    (level.groupText (e :: es)).toList =
      '(' :: (e.text.toList ++ (level.moreText es ++ [')'])) := by
  have hjoined : ∀ (e : Expr) (es : List Expr),
      level.joinText.toList.intercalate ((texts (e :: es)).map String.toList) =
        e.text.toList ++ level.moreText es := by
    intro e es
    induction es generalizing e with
    | nil => simp [texts, Level.moreText]
    | cons e' es ih =>
      have hrest := ih e'
      simp only [texts, List.map_cons] at hrest ⊢
      rw [List.intercalate_cons_cons, hrest]
      simp [Level.moreText]
  rw [Level.groupText, String.toList_append, String.toList_append, String.toList_intercalate,
    hjoined]
  simp

/-- A written joint is scanned as the joint. -/
lemma Level.scanFrom_joinText (level : Level) (cs : List Char) :
    Token.scanFrom [] (level.joinText.toList ++ cs) = level.joint :: Token.scanFrom [] cs := by
  cases level with
  | list => rfl
  | disjunction => rfl
  | conjunction => rfl

/-- No word goes on where further operands begin, nor at the end of them. -/
lemma Level.stop_moreText (level : Level) (es : List Expr) {cs : List Char}
    (h : ∀ c ∈ cs.head?, Token.isWordChar c = false) :
    ∀ c ∈ (level.moreText es ++ cs).head?, Token.isWordChar c = false := by
  cases es with
  | nil => exact h
  | cons e es =>
    have hhead : ∃ c, level.joinText.toList.head? = some c ∧ Token.isWordChar c = false := by
      cases level <;> exact ⟨_, rfl, by decide⟩
    obtain ⟨c, hc, hstop⟩ := hhead
    have hfirst : (level.moreText (e :: es) ++ cs).head? = some c := by
      simp [Level.moreText, hc]
    intro c' hc'
    rw [hfirst] at hc'
    obtain rfl : c = c' := Option.some.inj hc'
    exact hstop

/-- An expression is written as the term whose meaning it is. -/
def WrittenAs (e : Expr) (t : Term) : Prop :=
  t.expr = e ∧ t.tokens = Token.scan e.text

/-- Further operands that are written as terms are written as further operands of any level. -/
lemma exists_operands_of_writtenAs (level : Level) {es : List Expr}
    (h : ∀ e ∈ es, ∃ t, WrittenAs e t) :
    ∃ more : Operands level, more.exprs = es ∧
      more.tokens = Token.scanFrom [] (level.moreText es) := by
  induction es with
  | nil => exact ⟨.nil, rfl, rfl⟩
  | cons e es ih =>
    obtain ⟨hfirst, hrest⟩ := List.forall_mem_cons.1 h
    obtain ⟨t, rfl, htokens⟩ := hfirst
    obtain ⟨more, hexprs, hmore⟩ := ih hrest
    refine ⟨.cons (.ofTerm t level) more, by simp [Operands.exprs, hexprs], ?_⟩
    have hsplit : level.moreText (t.expr :: es) =
        level.joinText.toList ++ (t.expr.text.toList ++ level.moreText es) := by
      simp [Level.moreText]
    have hend : ∀ c ∈ ([] : List Char).head?, Token.isWordChar c = false := by simp
    have hstop := level.stop_moreText es hend
    rw [List.append_nil] at hstop
    rw [hsplit, Level.scanFrom_joinText, Token.scanFrom_append hstop, ← hmore, Operands.tokens,
      Operand.tokens_ofTerm, htokens]
    rfl

/-- Operands that are written as terms are written, in parentheses, as a group. -/
lemma exists_group_of_writtenAs (level : Level) {e : Expr} {es : List Expr}
    (he : ∃ t, WrittenAs e t) (hes : ∀ e' ∈ es, ∃ t, WrittenAs e' t) :
    ∃ p : Phrase .list, p.expr = level.combine e es ∧
      (Term.group p).tokens = Token.scan (level.groupText (e :: es)) := by
  obtain ⟨t, rfl, htokens⟩ := he
  obtain ⟨more, rfl, hmore⟩ := exists_operands_of_writtenAs level hes
  refine ⟨(Phrase.mk (.ofTerm t level) more).asList, by simp [Phrase.expr], ?_⟩
  have hclose : ∀ c ∈ [')'].head?, Token.isWordChar c = false := by
    intro c hc
    rw [← Option.mem_some.1 hc]
    decide
  have hstop := level.stop_moreText more.exprs hclose
  have hend : Token.scanFrom [] [')'] = [.rightParen] := rfl
  have hfirst : Token.scanFrom [] t.expr.text.toList = t.tokens := htokens.symm
  rw [Token.scan, Level.toList_groupText, Token.scanFrom_cons_of_delimits .leftParen,
    Token.scanFrom_append hstop, Token.scanFrom_append hclose, ← hmore, hend, hfirst,
    Token.ofPending, List.nil_append]
  simp [Term.tokens, Phrase.tokens]

/-- Every well-formed expression is written as a term. -/
lemma exists_writtenAs {e : Expr} (h : e.WellFormed) : ∃ t, WrittenAs e t := by
  induction h with
  | @name n hn =>
    refine ⟨.name n, rfl, ?_⟩
    rw [Expr.text, Token.scan_of_isTagName hn, Term.tokens]
  | @not e _ ih =>
    obtain ⟨t, rfl, htokens⟩ := ih
    refine ⟨.not t, by rw [Term.expr], ?_⟩
    rw [Expr.text, Token.scan, String.toList_append, Term.tokens, htokens]
    exact (Token.scanFrom_cons_of_delimits .not [] t.expr.text.toList).symm
  | @and es htwo _ ih =>
    match es, htwo, ih with
    | e :: e' :: es, _, ih =>
      obtain ⟨he, hes⟩ := List.forall_mem_cons.1 ih
      obtain ⟨p, hexpr, htokens⟩ := exists_group_of_writtenAs .conjunction he hes
      exact ⟨.group p, by rw [Term.expr, hexpr]; rfl, htokens⟩
  | @or es htwo _ ih =>
    match es, htwo, ih with
    | e :: e' :: es, _, ih =>
      obtain ⟨he, hes⟩ := List.forall_mem_cons.1 ih
      obtain ⟨p, hexpr, htokens⟩ := exists_group_of_writtenAs .disjunction he hes
      exact ⟨.group p, by rw [Term.expr, hexpr]; rfl, htokens⟩

/-! ### Reading what is written -/

/-- A well-formed expression is read back from its text. -/
lemma parse_text_of_wellFormed {e : Expr} (h : e.WellFormed) : parse e.text = .ok (some e) := by
  obtain ⟨t, rfl, htokens⟩ := exists_writtenAs h
  let p : Phrase .list := .mk (.ofTerm t .list) .nil
  have hp : p.tokens = Token.scan t.expr.text := by
    simp [p, Phrase.tokens, Operands.tokens, htokens]
  have hexpr : p.expr = t.expr := by
    simp [p, Phrase.expr, Operands.exprs, Level.combine]
  exact parse_eq_some_iff.2 ⟨p, hp, hexpr⟩

/-- **Reading and writing are inverse.**  Reading texts yields the well-formed expressions and no
others, and these are the expressions that are read back from the texts in which they are
written. -/
theorem parse_text_iff_wellFormed (e : Expr) :
    ((∃ s, parse s = .ok (some e)) ↔ e.WellFormed) ∧
      (parse e.text = .ok (some e) ↔ e.WellFormed) := by
  constructor
  · constructor
    · rintro ⟨s, hs⟩
      exact wellFormed_of_parse hs
    · intro h
      exact ⟨e.text, parse_text_of_wellFormed h⟩
  · constructor
    · intro h
      exact wellFormed_of_parse h
    · intro h
      exact parse_text_of_wellFormed h

end Expr

end ChangelogParameters
