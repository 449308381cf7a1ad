import ChangelogParameters.Parameter

/-!
# The filter of a run

A run may be started with contexts, with a condition on labels and for a database.  A parameter
is visible if it agrees with each of these that is set; parameters without restrictions always
are.
-/

namespace ChangelogParameters

/-- What a run is started with; a part that is not set restricts nothing. -/
structure Filter where
  /-- The active contexts. -/
  contexts : Option Names
  /-- The condition on the labels of parameters. -/
  labels : Option Condition
  /-- The short name of the database. -/
  database : Option String
deriving DecidableEq, Repr

namespace Filter

/-- The filter with nothing set. -/
def unset : Filter := ⟨none, none, none⟩

instance : Inhabited Filter := ⟨unset⟩

/-! ### The three checks -/

/-- Whether the labels satisfy the condition of the run. -/
def allowsLabels (filter : Filter) (labels : Names) : Bool :=
  match filter.labels with
  | none => true
  | some condition => condition.matchesNames labels

/-- Whether the contexts of the run satisfy the condition of the parameter. -/
def allowsContexts (filter : Filter) (condition : Condition) : Bool :=
  match filter.contexts with
  | none => true
  | some active => condition.matchesNames active

/-- Whether the database of the run is among the targets. -/
def allowsDatabase (filter : Filter) (targets : Targets) : Bool :=
  match filter.database with
  | none => true
  | some database => !targets.isRestricted || targets.accepts database

/-! ### Visibility -/

/-- Whether a run sees a parameter. -/
def accepts (filter : Filter) (parameter : Parameter) : Bool :=
  let r := parameter.restrictions
  if !parameter.filterable && !r.isRestricted then true
  else filter.allowsLabels r.labels && filter.allowsContexts r.contexts &&
    filter.allowsDatabase r.databases

end Filter

end ChangelogParameters
