import ChangelogParameters.Proofs.Tag.Recasing
import ChangelogParameters.Proofs.Tag.Stages
import ChangelogParameters.Proofs.Tag.Truth

/-!
# Commas and disjunctions

A comma joins more loosely than `or`, and both stand for a disjunction.  So a comma can be spelt out
as `or` wherever it stands, inside parentheses as well: of the two texts both are tag expressions
with the same truth, or both have the same kind of fault.

The expressions themselves differ, because commas make a level of their own.  A list whose commas
are spelt out is a single disjunction: the operands of the disjunctions in the list, one after the
other.  For faults no derivation is needed, since the stages of reading do not tell the joints
apart.
-/

namespace ChangelogParameters

/-! ### Tokens -/

namespace Text

/-- The characters of a text with every comma spelt out as `or`. -/
def spellOutChars (cs : List Char) : List Char :=
  cs.flatMap fun c => if c = ',' then " or ".toList else [c]

/-- A text with every comma spelt out as `or`. -/
def spellOutCommas (s : String) : String :=
  String.ofList (spellOutChars s.toList)

lemma spellOutChars_comma (cs : List Char) :
    spellOutChars (',' :: cs) = " or ".toList ++ spellOutChars cs := by
  simp [spellOutChars]

lemma spellOutChars_cons_of_ne {c : Char} (hc : c ≠ ',') (cs : List Char) :
    spellOutChars (c :: cs) = c :: spellOutChars cs := by
  simp [spellOutChars, hc]

end Text

namespace Token

/-- A comma as `or`. -/
def spellOut : Token → Token
  | comma => or
  | t => t

/-- No comma comes from a word. -/
lemma map_spellOut_ofPending (pending : List Char) :
    (ofPending pending).map spellOut = ofPending pending := by
  have hword : ∀ word, (ofWord word).spellOut = ofWord word := by
    intro word
    have hspells := ofWord_eq_iff.1 (Eq.refl (ofWord word))
    generalize ofWord word = t at hspells
    generalize String.ofList (Text.lowerChars word) = lowered at hspells
    cases hspells <;> rfl
  cases pending with
  | nil => rfl
  | cons c pending => simp [ofPending, hword]

/-- Only the commas of a text are scanned as commas. -/
lemma map_spellOut_ofDelimiter? {c : Char} (hc : c ≠ ',') :
    (ofDelimiter? c).toList.map spellOut = (ofDelimiter? c).toList := by
  cases hdelimiter : ofDelimiter? c with
  | none => rfl
  | some t =>
    cases ofDelimiter?_eq_some_iff.1 hdelimiter <;> first | rfl | contradiction

/-- Spelling out the commas of a text spells out those among its tokens. -/
lemma scanFrom_spellOutChars (pending cs : List Char) :
    scanFrom pending (Text.spellOutChars cs) = (scanFrom pending cs).map spellOut := by
  induction cs generalizing pending with
  | nil => exact (map_spellOut_ofPending pending).symm
  | cons c cs ih =>
    by_cases hcomma : c = ','
    · subst hcomma
      have hstop : ∀ c' ∈ (" or ".toList ++ Text.spellOutChars cs).head?, isWordChar c' = false := by
        simp; decide
      have hor : scanFrom [] (" or ".toList ++ Text.spellOutChars cs) =
          .or :: scanFrom [] (Text.spellOutChars cs) := rfl
      rw [Text.spellOutChars_comma, scanFrom_of_stop hstop, hor, ih,
        scanFrom_cons_of_delimits .comma, List.map_append, map_spellOut_ofPending]
      rfl
    · rw [Text.spellOutChars_cons_of_ne hcomma, scanFrom, scanFrom]
      split
      case isTrue => exact ih _
      case isFalse =>
        rw [ih, List.map_append, List.map_append, map_spellOut_ofPending,
          map_spellOut_ofDelimiter? hcomma]

lemma scan_spellOutCommas (s : String) :
    scan (Text.spellOutCommas s) = (scan s).map spellOut := by
  rw [scan, Text.spellOutCommas, String.toList_ofList, scanFrom_spellOutChars, scan]

end Token

namespace Expr

/-! ### Phrases -/

/-- The level to which the phrases of a level belong when their commas are spelt out. -/
def Level.spellOut : Level → Level
  | .list => .disjunction
  | level => level

@[simp] lemma Level.joint_spellOut (level : Level) :
    level.spellOut.joint = level.joint.spellOut := by
  cases level <;> rfl

@[simp] lemma Level.verdict_spellOut (level : Level) :
    level.spellOut.verdict = level.verdict := by
  cases level <;> rfl

mutual

/-- A phrase whose commas are spelt out is a phrase with the same truth. -/
lemma Phrase.exists_spellOut {level : Level} : ∀ p : Phrase level, ∃ p' : Phrase level.spellOut,
    p'.tokens = p.tokens.map Token.spellOut ∧
      ∀ names, p'.expr.evaluate names = p.expr.evaluate names
  | .mk first more => by
    obtain ⟨p', htokens, htruth⟩ := first.exists_spellOut
    obtain ⟨more', hmore, hverdict⟩ := more.exists_spellOut
    refine ⟨p'.extend more', ?_, fun names => ?_⟩
    · rw [Phrase.tokens_extend, Phrase.tokens, List.map_append, htokens, hmore]
    · rw [Phrase.evaluate_extend, Phrase.evaluate_expr_mk, Level.verdict_spellOut, htruth,
        hverdict]
termination_by structural p => p

/-- Further operands whose commas are spelt out are further operands with the same verdict. -/
lemma Operands.exists_spellOut {level : Level} : ∀ more : Operands level,
    ∃ more' : Operands level.spellOut, more'.tokens = more.tokens.map Token.spellOut ∧
      ∀ names, more'.verdict names = more.verdict names
  | .nil => ⟨.nil, rfl, fun names => by rw [Operands.verdict, Level.verdict_spellOut]; rfl⟩
  | .cons next more => by
    obtain ⟨p', htokens, htruth⟩ := next.exists_spellOut
    obtain ⟨more', hmore, hverdict⟩ := more.exists_spellOut
    refine ⟨p'.behindJoint.append more', ?_, fun names => ?_⟩
    · rw [Operands.tokens_append, Phrase.tokens_behindJoint, Operands.tokens, List.map_cons,
        List.map_append, htokens, hmore, Level.joint_spellOut, List.cons_append]
    · rw [Operands.verdict_append, Phrase.verdict_behindJoint, Level.verdict_spellOut, htruth,
        hverdict, Operands.verdict_cons]
termination_by structural more => more

/-- An operand whose commas are spelt out is a phrase with the same truth. -/
lemma Operand.exists_spellOut {level : Level} : ∀ o : Operand level, ∃ p' : Phrase level.spellOut,
    p'.tokens = o.tokens.map Token.spellOut ∧
      ∀ names, p'.expr.evaluate names = o.expr.evaluate names
  | .disjunction p => p.exists_spellOut
  | .conjunction p => by
    obtain ⟨p', htokens, htruth⟩ := p.exists_spellOut
    exact ⟨.mk (.conjunction p') .nil, by simpa [Phrase.tokens, Operand.tokens, Operands.tokens],
      htruth⟩
  | .term t => by
    obtain ⟨t', htokens, htruth⟩ := t.exists_spellOut
    exact ⟨.mk (.term t') .nil, by simpa [Phrase.tokens, Operand.tokens, Operands.tokens], htruth⟩
termination_by structural o => o

/-- A term whose commas are spelt out is a term with the same truth. -/
lemma Term.exists_spellOut : ∀ t : Term, ∃ t' : Term,
    t'.tokens = t.tokens.map Token.spellOut ∧
      ∀ names, t'.expr.evaluate names = t.expr.evaluate names
  | .name n => ⟨.name n, rfl, fun _ => rfl⟩
  | .group p => by
    obtain ⟨p', htokens, htruth⟩ := p.exists_spellOut
    refine ⟨.group p'.asList, ?_, fun names => ?_⟩
    · simp [Term.tokens, htokens, Token.spellOut]
    · rw [Term.expr, Phrase.expr_asList, htruth, Term.expr]
  | .not t => by
    obtain ⟨t', htokens, htruth⟩ := t.exists_spellOut
    refine ⟨.not t', ?_, fun names => ?_⟩
    · simp [Term.tokens, htokens, Token.spellOut]
    · rw [Term.expr, Term.expr, evaluate, evaluate, htruth]
termination_by structural t => t

end

/-- Lists that differ in nothing but commas and `or` have the same truth. -/
lemma Phrase.evaluate_eq_of_map_spellOut {p q : Phrase .list}
    (h : p.tokens.map Token.spellOut = q.tokens.map Token.spellOut) (names : Names) :
    p.expr.evaluate names = q.expr.evaluate names := by
  obtain ⟨p', hp, hptruth⟩ := p.exists_spellOut
  obtain ⟨q', hq, hqtruth⟩ := q.exists_spellOut
  have heq : p' = q' := Phrase.eq_of_tokens_eq (by rw [hp, hq, h])
  rw [← hptruth, ← hqtruth, heq]

/-! ### Faults -/

/-- A fault in terms of the spelt out tokens; it stays of its kind. -/
def Fault.spellOut : Fault → Fault
  | .unbalancedParentheses => .unbalancedParentheses
  | .missingOperand after => .missingOperand (after.map Token.spellOut)
  | .unexpectedToken t => .unexpectedToken t.spellOut

namespace Stage

/-- A stage in terms of the spelt out tokens. -/
def spellOut : Stage → Stage
  | due after depth => due (after.map Token.spellOut) depth
  | complete depth => complete depth

lemma next?_spellOut (stage : Stage) (t : Token) :
    stage.spellOut.next? t.spellOut = (stage.next? t).map spellOut := by
  cases stage with
  | due after depth => cases t <;> rfl
  | complete depth => cases depth <;> cases t <;> rfl

lemma fault_spellOut (stage : Stage) (next : Option Token) :
    stage.spellOut.fault (next.map Token.spellOut) = (stage.fault next).spellOut := by
  cases next with
  | none =>
    cases stage with
    | due after depth => rfl
    | complete depth => cases depth <;> rfl
  | some t =>
    cases stage with
    | due after depth => cases t <;> rfl
    | complete depth => cases depth <;> cases t <;> rfl

/-- The stages cannot go on at the same places. -/
lemma failure?_spellOut (stage : Stage) (ts : List Token) :
    stage.spellOut.failure? (ts.map Token.spellOut) =
      (stage.failure? ts).map fun failure =>
        ⟨failure.fault.spellOut, failure.rest.map Token.spellOut⟩ := by
  induction ts generalizing stage with
  | nil =>
    have hfault := stage.fault_spellOut none
    have hcomplete : stage.spellOut = complete 0 ↔ stage = complete 0 := by
      cases stage <;> simp [spellOut]
    simp only [List.map_nil, failure?, hcomplete]
    split
    case isTrue => rfl
    case isFalse => simpa using hfault
  | cons t ts ih =>
    have hnext := stage.next?_spellOut t
    cases h : stage.next? t with
    | none =>
      rw [h, Option.map_none] at hnext
      have hfault := stage.fault_spellOut (some t)
      rw [Option.map_some] at hfault
      simp [failure?_cons_of_eq_none h, failure?_cons_of_eq_none hnext, hfault]
    | some stage' =>
      rw [h, Option.map_some] at hnext
      rw [List.map_cons, failure?_cons_of_eq_some hnext, failure?_cons_of_eq_some h, ih]

end Stage

/-! ### Texts -/

/-- What is said of a text also holds when its commas are spelt out. -/
structure ParseError.SpelledOut (e e' : ParseError) : Prop where
  /-- The fault is of the same kind. -/
  fault : e'.fault = e.fault.spellOut
  /-- The text is the spelt out one. -/
  source : e'.source = Text.spellOutCommas e.source

/-- Two expressions are true over the same sets of names. -/
def SameTruth (e e' : Expr) : Prop :=
  ∀ names : Names, e.evaluate names = e'.evaluate names

/-- **Commas are disjunctions.**  Of a text and the same text with its commas spelt out as `or`, both
are blank, or both are expressions that are true over the same sets of names, or both are rejected
for the same kind of fault, which names the same token. -/
theorem parse_spellOutCommas (s : String) :
    Agree ParseError.SpelledOut (Option.Rel SameTruth) (parse s) (parse (Text.spellOutCommas s)) := by
  have hscan := Token.scan_spellOutCommas s
  rcases hparse : parse s with ⟨fault, source⟩ | (_ | e)
  · obtain ⟨rfl, hne, rest, hfailure⟩ := parse_eq_error_iff.1 hparse
    have hspelt := Stage.start.failure?_spellOut (Token.scan source)
    rw [hfailure, ← hscan] at hspelt
    have hne' : Token.scan (Text.spellOutCommas source) ≠ [] := by
      rw [hscan]
      simpa using hne
    rw [parse_eq_error_iff.2 ⟨rfl, hne', _, hspelt⟩]
    exact .error ⟨rfl, rfl⟩
  · rw [ofTokens_eq_none_iff.1 (parse_eq_ok_iff.1 hparse)] at hscan
    rw [parse_eq_ok_iff.2 (ofTokens_eq_none_iff.2 hscan)]
    exact .ok .none
  · obtain ⟨p, hp, rfl⟩ := parse_eq_some_iff.1 hparse
    obtain ⟨p', htokens, htruth⟩ := p.exists_spellOut
    have hp' : p'.asList.tokens = Token.scan (Text.spellOutCommas s) := by
      rw [Phrase.tokens_asList, htokens, hp, hscan]
    rw [parse_eq_some_iff.2 ⟨p'.asList, hp', rfl⟩, Phrase.expr_asList]
    exact .ok (.some fun names => (htruth names).symm)

end Expr

end ChangelogParameters
