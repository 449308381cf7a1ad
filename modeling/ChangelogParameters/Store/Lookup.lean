import ChangelogParameters.Changelog.Execution
import ChangelogParameters.Store
import ChangelogParameters.Template.Expansion
import ChangelogParameters.Value.Text

/-!
# Looking up parameters

At a position, execution values come first.  Otherwise the parameters are passed through in a
fixed order: the system tier and the global tier from the oldest on, then the bucket of the
position and those of the changelogs around it, each from the newest on.  The first one that has
the key and that the run sees gives the value.
-/

namespace ChangelogParameters

namespace Store

/-! ### The order of look-up -/

/-- The tiers of a store. -/
inductive Tier where
  | system
  | globals
  | locals
deriving DecidableEq, Repr

/-- The name of a tier. -/
def Tier.text : Tier → String
  | system => "system"
  | globals => "global"
  | locals => "local"

/-- A parameter with the place where it is kept. -/
structure Entry where
  /-- The tier. -/
  tier : Tier
  /-- The logical path of a local parameter. -/
  scope : Option String
  /-- The parameter. -/
  parameter : Parameter
deriving DecidableEq

/-- The entries of the bucket of a logical path, from the newest on. -/
def bucketEntries (store : Store) (scope : String) : List Entry :=
  (store.locals.get scope).reverse.map fun p => ⟨.locals, some scope, p⟩

/-- The logical paths whose buckets are seen from a position, in order. -/
def levels : Option Position → List String
  | none => []
  | some position => position.ancestry.map (·.logicalPath)

/-- The entries seen from a position, in the order of look-up. -/
def entries (store : Store) (position : Option Position) : List Entry :=
  store.system.map (⟨.system, none, ·⟩) ++ store.globals.map (⟨.globals, none, ·⟩) ++
    (levels position).flatMap store.bucketEntries

/-! ### Values -/

/-- The execution value that a key names, which only counts at a position. -/
def executionValue? (key : String) (position : Option Position) : Option ExecutionValue :=
  position.bind fun _ => ExecutionValue.ofName? key

/-- The first entry that has a key and that the run sees. -/
def find? (store : Store) (key : String) (position : Option Position) : Option Entry :=
  (store.entries position).find? fun entry =>
    entry.parameter.answersTo key && store.filter.accepts entry.parameter

/-- The value of a key; null is a value. -/
def resolve (store : Store) (key : String) (position : Option Position) : Option Value :=
  match position, executionValue? key position with
  | some here, some execution => (execution.compute store.deploymentId here).map .string
  | _, _ => (store.find? key position).map (·.parameter.value)

/-- The text of a key's value; null has none. -/
def resolveText (store : Store) (key : String) (position : Option Position) : Option String :=
  ((store.resolve key position).filter fun value => !value.isNull).map Value.render

/-- Whether a key has a value. -/
def hasValue (store : Store) (key : String) (position : Option Position) : Bool :=
  (store.resolve key position).isSome

/-- The value of a key in the position's own bucket. -/
def localValue (store : Store) (key : String) (position : Position) : Option Value :=
  ((store.locals.get position.scopeKey).reverse.find? fun parameter =>
    parameter.answersTo key && store.filter.accepts parameter).map (·.value)

/-- How texts at a position are expanded: names have the values that are seen from there. -/
def expander (store : Store) (position : Option Position) : Expander where
  mode := store.missingMode
  location := position.map (·.here.file)
  lookup := fun name => store.resolveText name position

/-- The expansion of a text at a position. -/
def expand (store : Store) (text : String) (position : Option Position) :
    Except Unresolved String :=
  ((store.expander position).expand text).result

end Store

end ChangelogParameters
