import ChangelogParameters.Tag.Expr.Parser

/-!
# Tag conditions

A condition is a tag expression that remembers its text.  A parameter carries a condition on
the contexts of the run, and a run carries a condition on the labels of parameters.  An empty
condition holds everywhere, and every condition holds over the empty set of names: a run
without contexts sees all parameters, and every run sees those without labels.
-/

namespace ChangelogParameters

/-- A tag expression together with the text it was read from. -/
structure Condition where
  /-- The text, trimmed. -/
  source : String
  /-- The expression; none if the text is blank. -/
  expr : Option Expr
deriving DecidableEq, Repr

namespace Condition

/-- The condition that holds everywhere. -/
def always : Condition where
  source := ""
  expr := none

instance : Inhabited Condition := ⟨always⟩

/-- The condition written in a text. -/
def parse (s : String) : Except Expr.ParseError Condition :=
  (Expr.parse s).map fun e => ⟨Text.trim s, e⟩

/-- Whether the condition says nothing. -/
def isEmpty (condition : Condition) : Bool :=
  condition.expr.isNone

/-- Whether the condition holds over a set of names. -/
def matchesNames (condition : Condition) (names : Names) : Bool :=
  match condition.expr with
  | none => true
  | some e => names.isEmpty || e.evaluate names

end Condition

end ChangelogParameters
