import ChangelogParameters.Proofs.Text.Recasing
import ChangelogParameters.Tag.Condition

/-!
# Recased tags

Tag names are lower-cased on every way into the program: word by word when an expression is read,
and name by name when a set is given by hand.  So recased texts have the same tokens, they stand for
the same expression or are faulty in the same way, and they give the same sets of names.
-/

namespace ChangelogParameters

/-! ### Outcomes -/

/-- Two outcomes agree if both are errors and the errors correspond, or if both are results and the
results correspond. -/
inductive Agree {ε α : Type} (errors : ε → ε → Prop) (results : α → α → Prop) :
    Except ε α → Except ε α → Prop
  | error {e e' : ε} (h : errors e e') : Agree errors results (.error e) (.error e')
  | ok {a a' : α} (h : results a a') : Agree errors results (.ok a) (.ok a')

/-! ### Tokens -/

namespace Token

/-- No ASCII letter is a delimiter. -/
lemma ofDelimiter?_toLower (c : Char) : ofDelimiter? c.toLower = ofDelimiter? c :=
  Text.toLower_congr (f := ofDelimiter?) (by decide +kernel) c

/-- Both cases of an ASCII letter are characters of words. -/
lemma isWordChar_toLower (c : Char) : isWordChar c.toLower = isWordChar c := by
  rw [isWordChar, isWordChar, Text.isBlank_toLower, ofDelimiter?_toLower]

/-- The token of a pending word does not depend on the case of its ASCII letters. -/
lemma ofPending_map_toLower (pending : List Char) :
    ofPending (pending.map Char.toLower) = ofPending pending := by
  cases pending with
  | nil => rfl
  | cons c cs =>
    change [ofWord ((c :: cs).map Char.toLower).reverse] = [ofWord (c :: cs).reverse]
    rw [← List.map_reverse, ofWord, ofWord, Text.lowerChars_map_toLower]

/-- The tokens of a text do not depend on the case of its ASCII letters. -/
lemma scanFrom_map_toLower (pending cs : List Char) :
    scanFrom (pending.map Char.toLower) (cs.map Char.toLower) = scanFrom pending cs := by
  induction cs generalizing pending with
  | nil => exact ofPending_map_toLower pending
  | cons c cs ih =>
    have hword := ih (c :: pending)
    have hdelimited := ih []
    rw [List.map_cons] at hword
    rw [List.map_nil] at hdelimited
    rw [List.map_cons, scanFrom, scanFrom, isWordChar_toLower, ofDelimiter?_toLower, hword,
      hdelimited, ofPending_map_toLower]

/-- Recased texts have the same tokens. -/
lemma scan_recased {a b : String} (h : Text.Recased a b) : scan a = scan b :=
  h.congr (scanFrom_map_toLower [])

end Token

/-! ### Expressions -/

namespace Expr

/-- Two errors with the same fault, found in recased texts. -/
structure ParseError.Recased (e e' : ParseError) : Prop where
  fault : e.fault = e'.fault
  source : Text.Recased e.source e'.source

/-- Recased texts stand for the same expression, or they have the same fault. -/
lemma parse_recased {s s' : String} (h : Text.Recased s s') :
    Agree ParseError.Recased (· = ·) (parse s) (parse s') := by
  rw [parse, parse, Token.scan_recased h]
  cases ofTokens (Token.scan s') with
  | error failure => exact .error ⟨rfl, h⟩
  | ok e => exact .ok rfl

end Expr

/-! ### Sets of names -/

/-- Two sets of names that are the same, or that are given by recased texts. -/
inductive Names.Recased : Names → Names → Prop
  | same (names : Names) : Recased names names
  /-- Both are given by a comma separated text. -/
  | parse {s s' : String} (h : Text.Recased s s') : Recased (.parse s) (.parse s')
  /-- Both are given name by name. -/
  | ofTexts {texts texts' : List String} (h : List.Forall₂ Text.Recased texts texts') :
      Recased (.ofTexts texts) (.ofTexts texts')

/-- Names given by recased texts, one by one, make up the same set. -/
lemma Names.ofTexts_recased {texts texts' : List String}
    (h : List.Forall₂ Text.Recased texts texts') : ofTexts texts = ofTexts texts' := by
  have hnormal : texts.map normalize = texts'.map normalize := Text.map_lower_trim_eq h
  rw [ofTexts, ofTexts, hnormal]

/-- Recasing does not change a set of names. -/
lemma Names.Recased.eq {names names' : Names} (h : names.Recased names') : names = names' := by
  cases h with
  | same => rfl
  | parse h => exact Names.ofTexts_recased h.commaSeparated
  | ofTexts h => exact Names.ofTexts_recased h

/-! ### Conditions -/

/-- Two conditions that are the same, or that are read from recased texts. -/
inductive Condition.Recased : Condition → Condition → Prop
  | same (condition : Condition) : Recased condition condition
  | parse {s s' : String} {condition condition' : Condition} (h : Text.Recased s s')
      (hs : Condition.parse s = .ok condition) (hs' : Condition.parse s' = .ok condition') :
      Recased condition condition'

/-- Of two recased texts both are conditions, or both have the same fault. -/
lemma Condition.parse_recased {s s' : String} (h : Text.Recased s s') :
    Agree Expr.ParseError.Recased Condition.Recased (Condition.parse s) (Condition.parse s') := by
  have hagree := Expr.parse_recased h
  generalize hs : Expr.parse s = outcome at hagree
  generalize hs' : Expr.parse s' = outcome' at hagree
  cases hagree with
  | error he =>
    rw [Condition.parse, Condition.parse, hs, hs']
    exact .error he
  | @ok e e' he =>
    have hcondition : Condition.parse s = .ok ⟨Text.trim s, e⟩ := by rw [Condition.parse, hs]; rfl
    have hcondition' : Condition.parse s' = .ok ⟨Text.trim s', e'⟩ := by
      rw [Condition.parse, hs']; rfl
    rw [hcondition, hcondition']
    exact .ok (.parse h hcondition hcondition')

/-- Recasing does not change the expression of a condition. -/
lemma Condition.Recased.expr_eq {condition condition' : Condition}
    (h : condition.Recased condition') : condition.expr = condition'.expr := by
  cases h with
  | same => rfl
  | @parse s s' _ _ h hs hs' =>
    have hagree := Expr.parse_recased h
    rw [Condition.parse] at hs hs'
    generalize Expr.parse s = outcome at hs hagree
    generalize Expr.parse s' = outcome' at hs' hagree
    cases hagree with
    | error => cases hs
    | ok he =>
      cases hs
      cases hs'
      exact he

/-- Recased conditions hold over the same sets of names. -/
lemma Condition.Recased.matchesNames_eq {condition condition' : Condition}
    (h : condition.Recased condition') (names : Names) :
    condition.matchesNames names = condition'.matchesNames names := by
  rw [matchesNames, matchesNames, h.expr_eq]

lemma Condition.Recased.isEmpty_eq {condition condition' : Condition}
    (h : condition.Recased condition') : condition.isEmpty = condition'.isEmpty := by
  rw [isEmpty, isEmpty, h.expr_eq]

end ChangelogParameters
