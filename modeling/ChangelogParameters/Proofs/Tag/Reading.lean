import ChangelogParameters.Proofs.Tag.Grammar
import ChangelogParameters.Proofs.Tag.Lexing

/-!
# Reading follows the grammar

Reading a phrase succeeds exactly if the tokens begin with a phrase of the grammar that ends
where reading stops, and it yields the expression that the phrase means.  Soundness follows the
recursion of the reading functions; completeness follows the derivation.

`parse_iff_derivation` puts this together with the rules for tokens: the texts that are accepted
are those whose tokens have a derivation, which is unique.
-/

namespace ChangelogParameters

namespace Expr

/-! ### What the reading functions yield -/

/-- Reading succeeds with a value and the tokens that are left. -/
def Yields {α : Type} {P : List Token → Prop}
    (reading : Except Failure (α × { rest : List Token // P rest })) (a : α)
    (rest : List Token) : Prop :=
  ∃ h : P rest, reading = .ok (a, ⟨rest, h⟩)

/-- Reading looks for the joints of the grammar. -/
lemma Level.separator_eq_joint (level : Level) : level.separator = level.joint := by
  cases level <;> rfl

/-- Joining the operands of a level makes the expression that the phrase means. -/
lemma Level.join_eq_combine (level : Level) (e : Expr) (es : List Expr) :
    level.join (e :: es) = level.combine e es := by
  cases level <;> cases es <;> rfl

/-- A phrase is read as an operand and further ones. -/
lemma yields_readChain_iff {level : Level} {previous : Option Token} {ts rest : List Token}
    {e : Expr} :
    Yields (readChain level previous ts) e rest ↔
      ∃ first rest₁ es, Yields (readOperand level previous ts) first rest₁ ∧
        Yields (readMore level rest₁) es rest ∧ e = level.combine first es := by
  rw [readChain]
  constructor
  · rintro ⟨hlt, h⟩
    split at h
    case h_1 => cases h
    case h_2 first rest₁ hlt₁ hfirst =>
      split at h
      case h_1 => cases h
      case h_2 es rest₂ hle₂ hmore =>
        cases h
        exact ⟨first, rest₁, es, ⟨hlt₁, hfirst⟩, ⟨hle₂, hmore⟩, Level.join_eq_combine _ _ _⟩
  · rintro ⟨first, rest₁, es, ⟨hlt₁, hfirst⟩, ⟨hle, hmore⟩, rfl⟩
    refine ⟨Nat.lt_of_le_of_lt hle hlt₁, ?_⟩
    simp only [hfirst, hmore, Level.join_eq_combine]

/-- Without its joint, no further operand of a level is read. -/
lemma yields_readMore_of_ne {level : Level} {ts rest : List Token} {es : List Expr}
    (h : ts.head? ≠ some level.joint) :
    Yields (readMore level ts) es rest ↔ es = [] ∧ rest = ts := by
  have hread : readMore level ts = .ok ([], ⟨ts, Nat.le_refl _⟩) := by
    cases ts with
    | nil => rw [readMore]
    | cons t ts =>
      have ht : t ≠ level.separator := by
        rw [Level.separator_eq_joint]
        simpa using h
      rw [readMore, if_neg ht]
  rw [hread]
  constructor
  · rintro ⟨hle, h⟩
    cases h
    exact ⟨rfl, rfl⟩
  · rintro ⟨rfl, rfl⟩
    exact ⟨Nat.le_refl _, rfl⟩

/-- Behind its joint, a further operand of a level is read, and others after it. -/
lemma yields_readMore_cons_iff {level : Level} {ts rest : List Token} {es : List Expr} :
    Yields (readMore level (level.joint :: ts)) es rest ↔
      ∃ e rest₁ es', Yields (readOperand level (some level.joint) ts) e rest₁ ∧
        Yields (readMore level rest₁) es' rest ∧ es = e :: es' := by
  rw [readMore]
  simp only [Level.separator_eq_joint, if_true]
  constructor
  · rintro ⟨hle, h⟩
    split at h
    case h_1 => cases h
    case h_2 e rest₁ hlt₁ hfirst =>
      split at h
      case h_1 => cases h
      case h_2 es' rest₂ hle₂ hmore =>
        cases h
        exact ⟨e, rest₁, es', ⟨hlt₁, hfirst⟩, ⟨hle₂, hmore⟩, rfl⟩
  · rintro ⟨e, rest₁, es', ⟨hlt₁, hfirst⟩, ⟨hle, hmore⟩, rfl⟩
    refine ⟨by simp only [List.length_cons]; omega, ?_⟩
    simp only [hfirst, hmore]

lemma readOperand_list (previous : Option Token) (ts : List Token) :
    readOperand .list previous ts = readChain .disjunction previous ts := by
  rw [readOperand]

lemma readOperand_disjunction (previous : Option Token) (ts : List Token) :
    readOperand .disjunction previous ts = readChain .conjunction previous ts := by
  rw [readOperand]

lemma readOperand_conjunction (previous : Option Token) (ts : List Token) :
    readOperand .conjunction previous ts = readNegation previous ts := by
  rw [readOperand]

/-- A negation is read as what it applies to. -/
lemma yields_readNegation_not_iff {previous : Option Token} {ts rest : List Token} {e : Expr} :
    Yields (readNegation previous (.not :: ts)) e rest ↔
      ∃ e', Yields (readNegation (some .not) ts) e' rest ∧ e = .not e' := by
  rw [readNegation]
  constructor
  · rintro ⟨hlt, h⟩
    split at h
    case h_1 => cases h
    case h_2 e' rest₁ hlt₁ hread =>
      cases h
      exact ⟨e', ⟨hlt₁, hread⟩, rfl⟩
  · rintro ⟨e', ⟨hlt, hread⟩, rfl⟩
    refine ⟨by simp only [List.length_cons]; omega, ?_⟩
    simp only [hread]

/-- What does not begin with a negation is a name or a group. -/
lemma readNegation_of_ne {previous : Option Token} {ts : List Token}
    (h : ts.head? ≠ some .not) : readNegation previous ts = readPrimary previous ts := by
  rw [readNegation]
  rintro rest rfl
  exact h rfl

/-- A name is a word, and a group is a list in parentheses. -/
lemma yields_readPrimary_iff {previous : Option Token} {ts rest : List Token} {e : Expr} :
    Yields (readPrimary previous ts) e rest ↔
      (∃ n, ts = .word n :: rest ∧ e = .name n) ∨
        ∃ ts', ts = .leftParen :: ts' ∧
          Yields (readChain .list (some .leftParen) ts') e (.rightParen :: rest) := by
  constructor
  · rintro ⟨hlt, h⟩
    rw [readPrimary.eq_def] at h
    split at h
    case h_1 n ts' =>
      cases h
      exact .inl ⟨n, rfl, rfl⟩
    case h_2 ts' =>
      split at h
      case h_1 => cases h
      case h_2 e' rest₁ hlt₁ hread =>
        split at h
        case h_1 rest₂ hlt₂ =>
          cases h
          exact .inr ⟨ts', rfl, hlt₂, hread⟩
        case h_2 => cases h
    all_goals cases h
  · rintro (⟨n, rfl, rfl⟩ | ⟨ts', rfl, hlt, hread⟩)
    · exact ⟨Nat.lt_succ_self _, by rw [readPrimary]⟩
    · refine ⟨by simp only [List.length_cons] at hlt ⊢; omega, ?_⟩
      rw [readPrimary]
      simp only [hread]

/-! ### Soundness -/

mutual

/-- What is read as a phrase is the meaning of a phrase that the tokens begin with. -/
lemma exists_phrase_of_yields {level : Level} {previous : Option Token} {ts rest : List Token}
    {e : Expr} (h : Yields (readChain level previous ts) e rest) :
    ∃ p : Phrase level, p.tokens ++ rest = ts ∧ p.expr = e := by
  obtain ⟨first, rest₁, es, hfirst, hmore, rfl⟩ := yields_readChain_iff.1 h
  have hlt : rest₁.length < ts.length := hfirst.1
  obtain ⟨o, rfl, rfl⟩ := exists_operand_of_yields hfirst
  obtain ⟨more, rfl, rfl⟩ := exists_operands_of_yields hmore
  exact ⟨.mk o more, by rw [Phrase.tokens, List.append_assoc], by rw [Phrase.expr]⟩
termination_by 8 * ts.length + 2 * level.rank + 1
decreasing_by all_goals omega

/-- What is read as further operands is the meaning of operands that the tokens begin with. -/
lemma exists_operands_of_yields {level : Level} {ts rest : List Token} {es : List Expr}
    (h : Yields (readMore level ts) es rest) :
    ∃ more : Operands level, more.tokens ++ rest = ts ∧ more.exprs = es := by
  by_cases hhead : ts.head? = some level.joint
  · obtain ⟨ts', hts⟩ := List.head?_eq_some_iff.1 hhead
    have hlen : ts.length = ts'.length + 1 := by rw [hts, List.length_cons]
    rw [hts] at h
    obtain ⟨e, rest₁, es', hnext, hmore, rfl⟩ := yields_readMore_cons_iff.1 h
    have hlt : rest₁.length < ts'.length := hnext.1
    obtain ⟨o, ho, rfl⟩ := exists_operand_of_yields hnext
    obtain ⟨more, hrest₁, rfl⟩ := exists_operands_of_yields hmore
    refine ⟨.cons o more, ?_, by rw [Operands.exprs]⟩
    rw [Operands.tokens, List.cons_append, List.append_assoc, hrest₁, ho, hts]
  · obtain ⟨rfl, rfl⟩ := (yields_readMore_of_ne hhead).1 h
    exact ⟨.nil, rfl, rfl⟩
termination_by 8 * ts.length
decreasing_by
  all_goals
    have := level.rank_le
    omega

/-- What is read as an operand is the meaning of an operand that the tokens begin with. -/
lemma exists_operand_of_yields {level : Level} {previous : Option Token} {ts rest : List Token}
    {e : Expr} (h : Yields (readOperand level previous ts) e rest) :
    ∃ o : Operand level, o.tokens ++ rest = ts ∧ o.expr = e := by
  match hlevel : level with
  | .list =>
    rw [readOperand_list] at h
    obtain ⟨p, hp⟩ := exists_phrase_of_yields h
    exact ⟨.disjunction p, hp⟩
  | .disjunction =>
    rw [readOperand_disjunction] at h
    obtain ⟨p, hp⟩ := exists_phrase_of_yields h
    exact ⟨.conjunction p, hp⟩
  | .conjunction =>
    rw [readOperand_conjunction] at h
    obtain ⟨t, ht⟩ := exists_term_of_yields h
    exact ⟨.term t, ht⟩
termination_by 8 * ts.length + 2 * level.rank
decreasing_by all_goals simp only [Level.rank]; omega

/-- What is read as a term is the meaning of a term that the tokens begin with. -/
lemma exists_term_of_yields {previous : Option Token} {ts rest : List Token} {e : Expr}
    (h : Yields (readNegation previous ts) e rest) :
    ∃ t : Term, t.tokens ++ rest = ts ∧ t.expr = e := by
  by_cases hhead : ts.head? = some .not
  · obtain ⟨ts', hts⟩ := List.head?_eq_some_iff.1 hhead
    have hlen : ts.length = ts'.length + 1 := by rw [hts, List.length_cons]
    rw [hts] at h
    obtain ⟨e', hread, rfl⟩ := yields_readNegation_not_iff.1 h
    obtain ⟨t, ht, rfl⟩ := exists_term_of_yields hread
    exact ⟨.not t, by rw [Term.tokens, List.cons_append, ht, hts], by rw [Term.expr]⟩
  · rw [readNegation_of_ne hhead] at h
    rcases yields_readPrimary_iff.1 h with ⟨n, rfl, rfl⟩ | ⟨ts', hts, hread⟩
    · exact ⟨.name n, rfl, rfl⟩
    · have hlen : ts.length = ts'.length + 1 := by rw [hts, List.length_cons]
      obtain ⟨p, hp, rfl⟩ := exists_phrase_of_yields hread
      refine ⟨.group p, ?_, by rw [Term.expr]⟩
      rw [Term.tokens, List.cons_append, List.append_assoc, List.singleton_append, hp, hts]
termination_by 8 * ts.length + 1
decreasing_by all_goals (try simp only [Level.rank]); omega

end

/-! ### Completeness -/

mutual

/-- A phrase is read to its end. -/
lemma Phrase.yields_readChain {level : Level} : ∀ (p : Phrase level) (previous : Option Token)
    {rest : List Token}, EndsAt level.rank rest →
    Yields (readChain level previous (p.tokens ++ rest)) p.expr rest
  | .mk first more, previous, rest, hrest => by
    rw [Phrase.tokens, Phrase.expr, List.append_assoc]
    exact yields_readChain_iff.2 ⟨first.expr, more.tokens ++ rest, more.exprs,
      first.yields_readOperand previous (endsAt_operands more hrest),
      more.yields_readMore hrest, rfl⟩
termination_by structural p => p

/-- Further operands are read to their end. -/
lemma Operands.yields_readMore {level : Level} : ∀ (more : Operands level) {rest : List Token},
    EndsAt level.rank rest → Yields (readMore level (more.tokens ++ rest)) more.exprs rest
  | .nil, rest, hrest => by
    rw [Operands.tokens, Operands.exprs, List.nil_append]
    exact (yields_readMore_of_ne (hrest level (Nat.le_refl _))).2 ⟨rfl, rfl⟩
  | .cons next more, rest, hrest => by
    rw [Operands.tokens, Operands.exprs, List.cons_append, List.append_assoc]
    exact yields_readMore_cons_iff.2 ⟨next.expr, more.tokens ++ rest, more.exprs,
      next.yields_readOperand _ (endsAt_operands more hrest), more.yields_readMore hrest, rfl⟩
termination_by structural more => more

/-- An operand is read to its end. -/
lemma Operand.yields_readOperand {level : Level} : ∀ (o : Operand level)
    (previous : Option Token) {rest : List Token}, EndsAt (level.rank - 1) rest →
    Yields (readOperand level previous (o.tokens ++ rest)) o.expr rest
  | .disjunction p, previous, rest, hrest => by
    rw [readOperand_list, Operand.tokens, Operand.expr]
    exact p.yields_readChain previous hrest
  | .conjunction p, previous, rest, hrest => by
    rw [readOperand_disjunction, Operand.tokens, Operand.expr]
    exact p.yields_readChain previous hrest
  | .term t, previous, rest, _ => by
    rw [readOperand_conjunction, Operand.tokens, Operand.expr]
    exact t.yields_readNegation previous rest
termination_by structural o => o

/-- A term is read to its end, whatever follows. -/
lemma Term.yields_readNegation : ∀ (t : Term) (previous : Option Token) (rest : List Token),
    Yields (readNegation previous (t.tokens ++ rest)) t.expr rest
  | .name n, previous, rest => by
    rw [Term.tokens, Term.expr, List.singleton_append, readNegation_of_ne (by simp)]
    exact yields_readPrimary_iff.2 (.inl ⟨n, rfl, rfl⟩)
  | .group p, previous, rest => by
    rw [Term.tokens, Term.expr, List.cons_append, List.append_assoc, List.singleton_append,
      readNegation_of_ne (by simp)]
    have hread := p.yields_readChain (some .leftParen) (endsAt_rightParen _ rest)
    exact yields_readPrimary_iff.2 (.inr ⟨_, rfl, hread⟩)
  | .not t, previous, rest => by
    rw [Term.tokens, Term.expr, List.cons_append]
    exact yields_readNegation_not_iff.2 ⟨t.expr, t.yields_readNegation _ rest, rfl⟩
termination_by structural t => t

end

/-! ### Whole texts -/

/-- A phrase has a token. -/
lemma Phrase.tokens_ne_nil {level : Level} (p : Phrase level) : p.tokens ≠ [] := by
  obtain ⟨hlt, -⟩ := p.yields_readChain none (endsAt_nil _)
  rw [List.append_nil] at hlt
  exact List.ne_nil_of_length_pos hlt

/-- A whole sequence of tokens is read as a phrase of a level exactly if it is the text of one. -/
lemma yields_readChain_nil_iff {level : Level} {previous : Option Token} {ts : List Token}
    {e : Expr} :
    Yields (readChain level previous ts) e [] ↔ ∃ p : Phrase level, p.tokens = ts ∧ p.expr = e := by
  constructor
  · intro h
    obtain ⟨p, hts, he⟩ := exists_phrase_of_yields h
    rw [List.append_nil] at hts
    exact ⟨p, hts, he⟩
  · rintro ⟨p, rfl, rfl⟩
    have hread := p.yields_readChain previous (endsAt_nil _)
    rwa [List.append_nil] at hread

/-- A sequence of tokens is accepted if reading a list uses all of it. -/
lemma ofTokens_eq_some_iff {ts : List Token} {e : Expr} :
    ofTokens ts = .ok (some e) ↔ ts ≠ [] ∧ Yields (readChain .list none ts) e [] := by
  by_cases hts : ts = []
  · simp [ofTokens, hts]
  · rw [ofTokens, if_neg hts]
    constructor
    · intro h
      split at h
      case h_1 => cases h
      case h_2 e' rest hlt hread =>
        split at h
        case h_1 =>
          cases h
          exact ⟨hts, _, hread⟩
        all_goals cases h
    · rintro ⟨-, hlt, hread⟩
      simp only [hread]

/-- Only the empty sequence of tokens stands for no expression. -/
lemma ofTokens_eq_none_iff {ts : List Token} : ofTokens ts = .ok none ↔ ts = [] := by
  by_cases hts : ts = []
  · simp [ofTokens, hts]
  · rw [ofTokens, if_neg hts]
    refine iff_of_false ?_ hts
    intro h
    split at h
    case h_1 => cases h
    case h_2 => split at h <;> cases h

/-- Parsing a text reads its tokens. -/
lemma parse_eq_ok_iff {s : String} {result : Option Expr} :
    parse s = .ok result ↔ ofTokens (Token.scan s) = .ok result := by
  rw [parse]
  cases ofTokens (Token.scan s) with
  | error failure => simp
  | ok result' => simp

/-- The expression of a text is what a list of the grammar with its tokens means. -/
lemma parse_eq_some_iff {s : String} {e : Expr} :
    parse s = .ok (some e) ↔ ∃ p : Phrase .list, p.tokens = Token.scan s ∧ p.expr = e := by
  rw [parse_eq_ok_iff, ofTokens_eq_some_iff, yields_readChain_nil_iff]
  refine and_iff_right_of_imp ?_
  rintro ⟨p, hp, -⟩ hnil
  exact p.tokens_ne_nil (hp.trans hnil)

/-- A text is malformed if it has tokens, but they are not those of a list of the grammar. -/
def Malformed (s : String) : Prop :=
  ∃ ts, Token.Lexes s.toList ts ∧ ts ≠ [] ∧ ¬ ∃ p : Phrase .list, p.tokens = ts

/-- The texts that are rejected are the malformed ones. -/
lemma malformed_iff {s : String} : Malformed s ↔ ∃ cause, parse s = .error cause := by
  constructor
  · rintro ⟨ts, hts, hne, hnot⟩
    obtain rfl : ts = Token.scan s := Token.lexes_iff_scan.1 hts
    rcases hresult : parse s with cause | (_ | e)
    · exact ⟨cause, rfl⟩
    · exact absurd (ofTokens_eq_none_iff.1 (parse_eq_ok_iff.1 hresult)) hne
    · obtain ⟨p, hp, -⟩ := parse_eq_some_iff.1 hresult
      exact absurd ⟨p, hp⟩ hnot
  · rintro ⟨cause, hcause⟩
    refine ⟨Token.scan s, Token.lexes_iff_scan.2 rfl, ?_, ?_⟩
    · intro hnil
      rw [parse_eq_ok_iff.2 (ofTokens_eq_none_iff.2 hnil)] at hcause
      cases hcause
    · rintro ⟨p, hp⟩
      rw [parse_eq_some_iff.2 ⟨p, hp, rfl⟩] at hcause
      cases hcause

/-- **Parsing follows the grammar.**  The rules for tokens give every text exactly one sequence of
tokens.  No expression is found exactly if there are no tokens; an expression is found exactly if
it is what a list of the grammar with these tokens means; all other texts are rejected.  There
is at most one such list. -/
theorem parse_iff_derivation (s : String) :
    ∃ ts, (∀ ts', Token.Lexes s.toList ts' ↔ ts' = ts) ∧
      (parse s = .ok none ↔ ts = []) ∧
      (∀ e, parse s = .ok (some e) ↔ ∃ p : Phrase .list, p.tokens = ts ∧ p.expr = e) ∧
      ((∃ err, parse s = .error err) ↔ ts ≠ [] ∧ ¬ ∃ p : Phrase .list, p.tokens = ts) ∧
      ∀ p p' : Phrase .list, p.tokens = ts → p'.tokens = ts → p = p' := by
  have hnone : parse s = .ok none ↔ Token.scan s = [] :=
    parse_eq_ok_iff.trans ofTokens_eq_none_iff
  have hsome : ∀ e, parse s = .ok (some e) ↔
      ∃ p : Phrase .list, p.tokens = Token.scan s ∧ p.expr = e := by
    intro e
    rw [parse_eq_ok_iff, ofTokens_eq_some_iff, yields_readChain_nil_iff]
    refine and_iff_right_of_imp ?_
    rintro ⟨p, hp, -⟩ hnil
    exact p.tokens_ne_nil (hp.trans hnil)
  refine ⟨Token.scan s, fun ts' => Token.lexes_iff_scan, hnone, hsome, ?_, ?_⟩
  · constructor
    · rintro ⟨err, herr⟩
      constructor
      · intro hnil
        rw [hnone.2 hnil] at herr
        cases herr
      · rintro ⟨p, hp⟩
        rw [(hsome p.expr).2 ⟨p, hp, rfl⟩] at herr
        cases herr
    · rintro ⟨hne, hnot⟩
      rcases hresult : parse s with err | (_ | e)
      · exact ⟨err, rfl⟩
      · exact absurd (hnone.1 hresult) hne
      · obtain ⟨p, hp, -⟩ := (hsome e).1 hresult
        exact absurd ⟨p, hp⟩ hnot
  · intro p p' hp hp'
    exact Phrase.eq_of_tokens_eq (hp.trans hp'.symm)

end Expr

end ChangelogParameters
