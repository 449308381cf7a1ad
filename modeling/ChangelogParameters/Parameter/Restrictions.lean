import ChangelogParameters.Database.Targets
import ChangelogParameters.Tag.Condition

/-!
# Restrictions

A parameter can be restricted in three ways: by a condition on the contexts of the run, by
labels and by target databases.  Blank text for one of them means no restriction of that kind.
-/

namespace ChangelogParameters

/-- What restricts a parameter. -/
structure Restrictions where
  /-- The condition on the contexts of the run. -/
  contexts : Condition
  /-- The labels the parameter carries. -/
  labels : Names
  /-- The databases the parameter is meant for. -/
  databases : Targets
deriving DecidableEq, Repr

namespace Restrictions

/-- No restrictions. -/
def none : Restrictions where
  contexts := .always
  labels := .empty
  databases := .any

instance : Inhabited Restrictions := ⟨none⟩

/-- The restrictions written in three texts; only that of the contexts can be malformed. -/
def parse (contexts labels databases : String) : Except Expr.ParseError Restrictions :=
  (Condition.parse contexts).map fun condition =>
    { contexts := condition, labels := .parse labels, databases := .parse databases }

/-- Whether there is a restriction of any kind. -/
def isRestricted (r : Restrictions) : Bool :=
  !r.contexts.isEmpty || !r.labels.isEmpty || r.databases.isRestricted

@[simp] theorem isRestricted_none : none.isRestricted = false := rfl

end Restrictions

end ChangelogParameters
