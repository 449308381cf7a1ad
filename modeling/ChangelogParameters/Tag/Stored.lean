import ChangelogParameters.Database.Targets
import ChangelogParameters.Tag.Names
import ChangelogParameters.Value.Decode

/-!
# Stored names and targets

Sets of names and target databases can be kept as values.  What is read back is taken as it is:
nothing is trimmed or lower-cased, and a list of targets may be empty.
-/

namespace ChangelogParameters

/-- The stored form of a set of names. -/
def Names.toValue (names : Names) : Value :=
  .array (names.toList.map .string)

/-- The set of names that a value stores. -/
def Names.ofValue? (v : Value) : Option Names :=
  v.strings?.map Names.ofList

/-- The stored form of target databases. -/
def Targets.toValue : Targets → Value
  | any => .string "Any"
  | only names => .object [("Only", .array (names.map .string))]

/-- The target databases that a value stores. -/
def Targets.ofValue? (v : Value) : Option Targets :=
  match v.alternative? with
  | some ("Any", given) => if Value.nothingGiven given then some any else none
  | some ("Only", some given) => given.strings?.map only
  | _ => none

end ChangelogParameters
