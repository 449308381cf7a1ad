import ChangelogParameters.Proofs.Tag.Commas

/-!
# Connectives on texts

Tag expressions can be put together as texts.  The negation of a text in parentheses, two texts in
parentheses with `and` between them, and two texts with a comma or `or` between them are conditions
again, and they hold where the connective says.

No parentheses are needed around the operands of a comma or an `or`.  With a comma the texts make
one list of both.  With `or` the last disjunction of the first text runs on into the second one,
but that is the list with a comma up to the joints, which have no influence on the truth.
-/

namespace ChangelogParameters

/-! ### Tokens of composed texts -/

namespace Token

/-- A text in parentheses is scanned in parentheses. -/
lemma scan_group (x : String) :
    scan ("(" ++ x ++ ")") = .leftParen :: (scan x ++ [.rightParen]) := by
  have hchars : ("(" ++ x ++ ")").toList = '(' :: (x.toList ++ [')']) := by simp
  rw [scan, hchars, scanFrom_cons_of_delimits .leftParen,
    scanFrom_append_cons (isWordChar_of_delimits .rightParen)]
  rfl

/-- Two texts with a written joint between them are scanned with the joint between them. -/
lemma scan_join (level : Expr.Level) (x y : String) :
    scan (x ++ level.joinText ++ y) = scan x ++ level.joint :: scan y := by
  have hstop : ∀ c ∈ (level.joinText.toList ++ y.toList).head?, isWordChar c = false := by
    cases level <;> simp [Expr.Level.joinText] <;> decide
  rw [scan, String.toList_append, String.toList_append, List.append_assoc,
    scanFrom_append hstop, Expr.Level.scanFrom_joinText]
  rfl

/-- The tokens of a negated text. -/
lemma scan_negation (x : String) :
    scan ("!(" ++ x ++ ")") = .not :: .leftParen :: (scan x ++ [.rightParen]) := by
  have hchars : ("!(" ++ x ++ ")").toList = '!' :: ("(" ++ x ++ ")").toList := by simp
  rw [scan, hchars, scanFrom_cons_of_delimits .not, ← scan_group, scan]
  rfl

/-- The tokens of two texts in parentheses with `and` between them. -/
lemma scan_conjunction (x y : String) :
    scan ("(" ++ x ++ ") and (" ++ y ++ ")") =
      .leftParen :: (scan x ++ [.rightParen]) ++
        .and :: (.leftParen :: (scan y ++ [.rightParen])) := by
  have hsplit : "(" ++ x ++ ") and (" ++ y ++ ")" =
      "(" ++ x ++ ")" ++ Expr.Level.conjunction.joinText ++ ("(" ++ y ++ ")") :=
    String.toList_inj.1 (by simp [Expr.Level.joinText])
  rw [hsplit, scan_join, scan_group, scan_group]
  rfl

end Token

namespace Expr

/-! ### Phrases of composed texts -/

/-- A single operand as a phrase. -/
def Phrase.ofTerm {level : Level} (t : Term) : Phrase level :=
  .mk (.ofTerm t level) .nil

@[simp] lemma Phrase.tokens_ofTerm {level : Level} (t : Term) :
    (Phrase.ofTerm t : Phrase level).tokens = t.tokens := by
  simp [Phrase.ofTerm, Phrase.tokens, Operands.tokens]

@[simp] lemma Phrase.expr_ofTerm {level : Level} (t : Term) :
    (Phrase.ofTerm t : Phrase level).expr = t.expr := by
  cases level <;> simp [Phrase.ofTerm, Phrase.expr, Operands.exprs, Level.combine]

/-- The negation of a list in parentheses is a list. -/
lemma Phrase.exists_negation (p : Phrase .list) :
    ∃ r : Phrase .list, r.tokens = .not :: .leftParen :: (p.tokens ++ [.rightParen]) ∧
      ∀ names, r.expr.evaluate names = !p.expr.evaluate names := by
  refine ⟨.ofTerm (.not (.group p)), ?_, fun names => ?_⟩
  · rw [Phrase.tokens_ofTerm, Term.tokens, Term.tokens]
  · rw [Phrase.expr_ofTerm, Term.expr, Term.expr, evaluate]

/-- The conjunction of two lists in parentheses is a list. -/
lemma Phrase.exists_conjunction (p q : Phrase .list) :
    ∃ r : Phrase .list,
      r.tokens = .leftParen :: (p.tokens ++ [.rightParen]) ++
        .and :: (.leftParen :: (q.tokens ++ [.rightParen])) ∧
      ∀ names, r.expr.evaluate names = (p.expr.evaluate names && q.expr.evaluate names) := by
  let both : Phrase .conjunction := .join (.ofTerm (.group p)) (.ofTerm (.group q))
  refine ⟨both.asList, ?_, fun names => ?_⟩
  · rw [Phrase.tokens_asList, Phrase.tokens_join, Phrase.tokens_ofTerm, Phrase.tokens_ofTerm,
      Term.tokens, Term.tokens]
    rfl
  · rw [Phrase.expr_asList, Phrase.evaluate_join, Phrase.expr_ofTerm, Phrase.expr_ofTerm,
      Term.expr, Term.expr]
    simp [Level.verdict]

/-- Two lists with a comma between them are a list. -/
lemma Phrase.exists_comma (p q : Phrase .list) :
    ∃ r : Phrase .list, r.tokens = p.tokens ++ .comma :: q.tokens ∧
      ∀ names, r.expr.evaluate names = (p.expr.evaluate names || q.expr.evaluate names) := by
  refine ⟨p.join q, p.tokens_join q, fun names => ?_⟩
  rw [Phrase.evaluate_join]
  simp [Level.verdict]

/-- Two lists with `or` between them are a list with the same truth as with a comma. -/
lemma Phrase.exists_or (p q : Phrase .list) :
    ∃ r : Phrase .list, r.tokens = p.tokens ++ .or :: q.tokens ∧
      ∀ names, r.expr.evaluate names = (p.expr.evaluate names || q.expr.evaluate names) := by
  have hrun : Stage.start.run? (p.tokens ++ .or :: q.tokens) = some (.complete 0) := by
    rw [Stage.start, Stage.run?_append_of_eq_some (p.run?_tokens none 0)]
    exact q.run?_tokens (some .or) 0
  obtain ⟨r, hr⟩ := exists_phrase_iff_run?.2 hrun
  obtain ⟨list, hlist, htruth⟩ := p.exists_comma q
  refine ⟨r, hr, fun names => ?_⟩
  have hspelt : r.tokens.map Token.spellOut = list.tokens.map Token.spellOut := by
    rw [hr, hlist, List.map_append, List.map_append]
    rfl
  rw [Phrase.evaluate_eq_of_map_spellOut hspelt, htruth]

end Expr

/-! ### Conditions -/

namespace Condition

/-- The condition of a text is found by a list of the grammar with its tokens. -/
lemma parse_of_tokens {s : String} {p : Expr.Phrase .list} (h : p.tokens = Token.scan s) :
    parse s = .ok ⟨Text.trim s, some p.expr⟩ := by
  rw [parse, Expr.parse_eq_some_iff.2 ⟨p, h, rfl⟩]
  rfl

/-- A condition with an expression comes from a list of the grammar. -/
lemma exists_phrase_of_parse {s : String} {condition : Condition} (h : parse s = .ok condition)
    (hne : condition.isEmpty = false) :
    ∃ p : Expr.Phrase .list, p.tokens = Token.scan s ∧ condition.expr = some p.expr := by
  rw [parse] at h
  rcases hparse : Expr.parse s with cause | (_ | e)
  · rw [hparse] at h
    cases h
  · rw [hparse] at h
    cases h
    cases hne
  · rw [hparse] at h
    cases h
    obtain ⟨p, hp, rfl⟩ := Expr.parse_eq_some_iff.1 hparse
    exact ⟨p, hp, rfl⟩

/-- **Connectives.**  Let `x` and `y` be the texts of two conditions that are not empty.  Their
compositions with the connectives are texts of conditions.  Over a set of names that is not empty
the negation holds exactly if `x` does not, the conjunction exactly if both do, and the composition
with a comma or with `or` exactly if at least one does.  Over the empty set all of them hold. -/
theorem matchesNames_connectives {x y : String} {cx cy : Condition} (hx : parse x = .ok cx)
    (hy : parse y = .ok cy) (hxne : cx.isEmpty = false) (hyne : cy.isEmpty = false) :
    ∃ cnot cand clist cor,
      parse ("!(" ++ x ++ ")") = .ok cnot ∧
      parse ("(" ++ x ++ ") and (" ++ y ++ ")") = .ok cand ∧
      parse (x ++ ", " ++ y) = .ok clist ∧
      parse (x ++ " or " ++ y) = .ok cor ∧
      ∀ names : Names,
        (names.isEmpty = false →
          cnot.matchesNames names = !cx.matchesNames names ∧
          cand.matchesNames names = (cx.matchesNames names && cy.matchesNames names) ∧
          clist.matchesNames names = (cx.matchesNames names || cy.matchesNames names) ∧
          cor.matchesNames names = (cx.matchesNames names || cy.matchesNames names)) ∧
        (names.isEmpty = true →
          cnot.matchesNames names = true ∧ cand.matchesNames names = true ∧
          clist.matchesNames names = true ∧ cor.matchesNames names = true) := by
  obtain ⟨p, hp, hpexpr⟩ := exists_phrase_of_parse hx hxne
  obtain ⟨q, hq, hqexpr⟩ := exists_phrase_of_parse hy hyne
  obtain ⟨rnot, hnot, hnottruth⟩ := p.exists_negation
  obtain ⟨rand, hand, handtruth⟩ := p.exists_conjunction q
  obtain ⟨rlist, hlist, hlisttruth⟩ := p.exists_comma q
  obtain ⟨ror, hor, hortruth⟩ := p.exists_or q
  rw [hp] at hnot hand hlist hor
  rw [hq] at hand hlist hor
  refine ⟨_, _, _, _, parse_of_tokens (hnot.trans (Token.scan_negation x).symm),
    parse_of_tokens (hand.trans (Token.scan_conjunction x y).symm),
    parse_of_tokens (hlist.trans (Token.scan_join .list x y).symm),
    parse_of_tokens (hor.trans (Token.scan_join .disjunction x y).symm), fun names => ?_⟩
  constructor
  · intro hnames
    simp only [matchesNames, hpexpr, hqexpr, hnames, Bool.false_or]
    exact ⟨hnottruth names, handtruth names, hlisttruth names, hortruth names⟩
  · intro hnames
    simp [matchesNames, hnames]

/-- Over `prod` and `qa` the text `test or qa` holds and `dev, !prod` does not. -/
theorem matchesNames_connectives_dev :
    ∃ cx cy cnot cand clist cor,
      parse "dev, !prod" = .ok cx ∧ parse "test or qa" = .ok cy ∧
      cx.isEmpty = false ∧ cy.isEmpty = false ∧
      parse "!(dev, !prod)" = .ok cnot ∧ parse "(dev, !prod) and (test or qa)" = .ok cand ∧
      parse "dev, !prod, test or qa" = .ok clist ∧
      parse "dev, !prod or test or qa" = .ok cor ∧
      (Names.ofList ["prod", "qa"]).isEmpty = false ∧
      cnot.matchesNames (.ofList ["prod", "qa"]) = true ∧
      cand.matchesNames (.ofList ["prod", "qa"]) = false ∧
      clist.matchesNames (.ofList ["prod", "qa"]) = true ∧
      cor.matchesNames (.ofList ["prod", "qa"]) = true ∧
      cand.matchesNames ∅ = true := by
  let p : Expr.Phrase .list := .join (.ofTerm (.name "dev")) (.ofTerm (.not (.name "prod")))
  let q : Expr.Phrase .disjunction := .join (.ofTerm (.name "test")) (.ofTerm (.name "qa"))
  have hx : parse "dev, !prod" = .ok ⟨Text.trim "dev, !prod", some p.expr⟩ :=
    parse_of_tokens (by decide +kernel)
  have hy : parse "test or qa" = .ok ⟨Text.trim "test or qa", some q.asList.expr⟩ :=
    parse_of_tokens (by decide +kernel)
  obtain ⟨cnot, cand, clist, cor, hnot, hand, hlist, hor, hnames⟩ :=
    matchesNames_connectives hx hy rfl rfl
  have hsome : (Names.ofList ["prod", "qa"]).isEmpty = false := by decide +kernel
  obtain ⟨hnottruth, handtruth, hlisttruth, hortruth⟩ := (hnames _).1 hsome
  obtain ⟨-, handempty, -, -⟩ := (hnames ∅).2 rfl
  refine ⟨_, _, cnot, cand, clist, cor, hx, hy, rfl, rfl, hnot, hand, hlist, hor, hsome, ?_⟩
  rw [hnottruth, handtruth, hlisttruth, hortruth]
  exact ⟨by decide +kernel, by decide +kernel, by decide +kernel, by decide +kernel, handempty⟩

end Condition

end ChangelogParameters
