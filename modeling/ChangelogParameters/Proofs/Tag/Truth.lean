import ChangelogParameters.Proofs.Tag.Printing

/-!
# The truth of phrases

A conjunction is true if all its operands are, a list or a disjunction if at least one of them is.
So a phrase can be put behind another one of its level, with the joint between them: the truth of
the whole is then decided by the truth of the two.
-/

namespace ChangelogParameters

namespace Expr

/-! ### Verdicts -/

/-- The truth of a phrase of a level whose operands have the given truth values. -/
def Level.verdict : Level → List Bool → Bool
  | .list, values => values.any id
  | .disjunction, values => values.any id
  | .conjunction, values => values.all id

@[simp] lemma Level.verdict_singleton (level : Level) (value : Bool) :
    level.verdict [value] = value := by
  cases level <;> simp [Level.verdict]

/-- Operands can be judged in two parts. -/
lemma Level.verdict_append (level : Level) (values values' : List Bool) :
    level.verdict (values ++ values') =
      level.verdict [level.verdict values, level.verdict values'] := by
  cases level <;> simp [Level.verdict]

/-- The operands of a level are combined into an expression with their verdict. -/
lemma Level.evaluate_combine (level : Level) (e : Expr) (es : List Expr) (names : Names) :
    (level.combine e es).evaluate names =
      level.verdict ((e :: es).map fun e => e.evaluate names) := by
  cases es with
  | nil => cases level <;> simp [Level.combine]
  | cons e' es =>
    cases level <;>
      simp [Level.combine, evaluate, evaluateAny_eq_any, evaluateAll_eq_all, Level.verdict]

/-! ### Longer phrases -/

/-- Further operands and, behind them, others. -/
def Operands.append {level : Level} : Operands level → Operands level → Operands level
  | .nil, others => others
  | .cons next more, others => .cons next (more.append others)

/-- A phrase as further operands, behind a joint. -/
def Phrase.behindJoint {level : Level} : Phrase level → Operands level
  | .mk first more => .cons first more

/-- A phrase with further operands. -/
def Phrase.extend {level : Level} : Phrase level → Operands level → Phrase level
  | .mk first more, others => .mk first (more.append others)

/-- Two phrases of a level with the joint between them. -/
def Phrase.join {level : Level} (p q : Phrase level) : Phrase level :=
  p.extend q.behindJoint

/-- The truth of further operands, were they a phrase by themselves. -/
def Operands.verdict {level : Level} (names : Names) (more : Operands level) : Bool :=
  level.verdict (more.exprs.map fun e => e.evaluate names)

/-- A phrase is true by the verdict on its operands. -/
lemma Phrase.evaluate_expr_mk {level : Level} (first : Operand level) (more : Operands level)
    (names : Names) : (Phrase.mk first more).expr.evaluate names =
      level.verdict [first.expr.evaluate names, more.verdict names] := by
  rw [Phrase.expr, Level.evaluate_combine, List.map_cons, ← List.singleton_append,
    Level.verdict_append, Level.verdict_singleton, Operands.verdict]

@[simp] lemma Operands.tokens_append {level : Level} (more others : Operands level) :
    (more.append others).tokens = more.tokens ++ others.tokens := by
  match more with
  | .nil => rfl
  | .cons next more => simp [Operands.append, Operands.tokens, more.tokens_append others]

@[simp] lemma Operands.exprs_append {level : Level} (more others : Operands level) :
    (more.append others).exprs = more.exprs ++ others.exprs := by
  match more with
  | .nil => rfl
  | .cons next more => simp [Operands.append, Operands.exprs, more.exprs_append others]

/-- The verdict on further operands can be given in two parts. -/
lemma Operands.verdict_append {level : Level} (more others : Operands level) (names : Names) :
    (more.append others).verdict names =
      level.verdict [more.verdict names, others.verdict names] := by
  rw [Operands.verdict, Operands.exprs_append, List.map_append, Level.verdict_append,
    Operands.verdict, Operands.verdict]

@[simp] lemma Phrase.tokens_behindJoint {level : Level} (p : Phrase level) :
    p.behindJoint.tokens = level.joint :: p.tokens := by
  cases p
  rfl

@[simp] lemma Phrase.verdict_behindJoint {level : Level} (p : Phrase level) (names : Names) :
    p.behindJoint.verdict names = p.expr.evaluate names := by
  obtain ⟨first, more⟩ := p
  rw [Phrase.expr, Level.evaluate_combine]
  rfl

/-- Further operands are judged by the first of them and the others. -/
lemma Operands.verdict_cons {level : Level} (next : Operand level) (more : Operands level)
    (names : Names) : (Operands.cons next more).verdict names =
      level.verdict [next.expr.evaluate names, more.verdict names] := by
  rw [← Phrase.evaluate_expr_mk]
  exact (Phrase.mk next more).verdict_behindJoint names

@[simp] lemma Phrase.tokens_extend {level : Level} (p : Phrase level) (others : Operands level) :
    (p.extend others).tokens = p.tokens ++ others.tokens := by
  cases p
  simp [Phrase.extend, Phrase.tokens]

/-- A phrase with further operands is true by the verdict on the phrase and on these. -/
lemma Phrase.evaluate_extend {level : Level} (p : Phrase level) (others : Operands level)
    (names : Names) : (p.extend others).expr.evaluate names =
      level.verdict [p.expr.evaluate names, others.verdict names] := by
  obtain ⟨first, more⟩ := p
  rw [Phrase.extend, Phrase.evaluate_expr_mk, Phrase.evaluate_expr_mk, Operands.verdict_append]
  cases level <;> simp [Level.verdict, Bool.or_assoc, Bool.and_assoc]

@[simp] lemma Phrase.tokens_join {level : Level} (p q : Phrase level) :
    (p.join q).tokens = p.tokens ++ level.joint :: q.tokens := by
  rw [Phrase.join, Phrase.tokens_extend, Phrase.tokens_behindJoint]

/-- Two joined phrases are true by the verdict on the two. -/
lemma Phrase.evaluate_join {level : Level} (p q : Phrase level) (names : Names) :
    (p.join q).expr.evaluate names =
      level.verdict [p.expr.evaluate names, q.expr.evaluate names] := by
  rw [Phrase.join, Phrase.evaluate_extend, Phrase.verdict_behindJoint]

end Expr

end ChangelogParameters
