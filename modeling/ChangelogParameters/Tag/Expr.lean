import ChangelogParameters.Tag.Names
import ChangelogParameters.Tag.Token

/-!
# Tag expressions

A tag expression is a Boolean combination of tag names.  It is evaluated over a set of names,
in which a name is true exactly when the set holds it, and it is written with every
conjunction and disjunction in parentheses.
-/

namespace ChangelogParameters

/-- A Boolean combination of tag names. -/
inductive Expr where
  /-- True where the name is present. -/
  | name (n : String)
  /-- True where the operand is false. -/
  | not (operand : Expr)
  /-- True where all operands are. -/
  | and (operands : List Expr)
  /-- True where at least one operand is. -/
  | or (operands : List Expr)
deriving Inhabited

namespace Expr

/-! ### Equality -/

mutual

/-- Whether two expressions are the same. -/
def same : Expr → Expr → Bool
  | name a, name b => a == b
  | not a, not b => same a b
  | and as, and bs => sameAll as bs
  | or as, or bs => sameAll as bs
  | _, _ => false

/-- Whether the expressions of two lists are the same, one by one. -/
def sameAll : List Expr → List Expr → Bool
  | [], [] => true
  | a :: as, b :: bs => same a b && sameAll as bs
  | _, _ => false

end

mutual

theorem same_iff : ∀ a b : Expr, same a b = true ↔ a = b
  | name _, b => by cases b <;> simp [same]
  | not a, b => by cases b <;> simp [same, same_iff a]
  | and as, b => by cases b <;> simp [same, sameAll_iff as]
  | or as, b => by cases b <;> simp [same, sameAll_iff as]

theorem sameAll_iff : ∀ as bs : List Expr, sameAll as bs = true ↔ as = bs
  | [], bs => by cases bs <;> simp [sameAll]
  | a :: as, bs => by cases bs <;> simp [sameAll, same_iff a, sameAll_iff as]

end

instance : DecidableEq Expr := fun a b => decidable_of_iff (same a b = true) (same_iff a b)

/-! ### Meaning -/

mutual

/-- The truth of an expression over a set of names. -/
def evaluate (names : Names) : Expr → Bool
  | name n => names.holds n
  | not operand => !operand.evaluate names
  | and operands => evaluateAll names operands
  | or operands => evaluateAny names operands

/-- Whether all the expressions are true. -/
def evaluateAll (names : Names) : List Expr → Bool
  | [] => true
  | e :: es => e.evaluate names && evaluateAll names es

/-- Whether at least one of the expressions is true. -/
def evaluateAny (names : Names) : List Expr → Bool
  | [] => false
  | e :: es => e.evaluate names || evaluateAny names es

end

theorem evaluateAll_eq_all (names : Names) (es : List Expr) :
    evaluateAll names es = es.all (·.evaluate names) := by
  induction es with
  | nil => rfl
  | cons e es ih => simp [evaluateAll, ih]

theorem evaluateAny_eq_any (names : Names) (es : List Expr) :
    evaluateAny names es = es.any (·.evaluate names) := by
  induction es with
  | nil => rfl
  | cons e es ih => simp [evaluateAny, ih]

/-! ### Text -/

mutual

/-- The text of an expression. -/
def text : Expr → String
  | name n => n
  | not operand => "!" ++ operand.text
  | and operands => "(" ++ " and ".intercalate (texts operands) ++ ")"
  | or operands => "(" ++ " or ".intercalate (texts operands) ++ ")"

/-- The texts of several expressions. -/
def texts : List Expr → List String
  | [] => []
  | e :: es => e.text :: texts es

end

instance : Repr Expr := ⟨fun e _ => e.text⟩

end Expr

end ChangelogParameters
