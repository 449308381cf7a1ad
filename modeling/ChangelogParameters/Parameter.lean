import ChangelogParameters.Parameter.Key
import ChangelogParameters.Parameter.Restrictions
import ChangelogParameters.Value

/-!
# Parameters

A parameter is a registered key with its value and its restrictions.  It is never changed once
it has been registered; several parameters may have the same key, and which of them a look-up
returns is decided by their order alone.
-/

namespace ChangelogParameters

/-- A registered key with its value and its restrictions. -/
structure Parameter where
  /-- The key as it was registered. -/
  key : String
  /-- The value. -/
  value : Value
  /-- What restricts the parameter. -/
  restrictions : Restrictions
  /-- Whether the filter of the run applies even without restrictions. -/
  filterable : Bool
deriving DecidableEq

namespace Parameter

/-- A parameter of the environment: without restrictions, and out of reach of the filter. -/
def system (key : String) (value : Value) : Parameter where
  key := key
  value := value
  restrictions := .none
  filterable := false

/-- Whether the parameter has the key asked for. -/
def answersTo (parameter : Parameter) (asked : String) : Bool :=
  keyMatches parameter.key asked

end Parameter

end ChangelogParameters
