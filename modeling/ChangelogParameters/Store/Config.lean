import ChangelogParameters.MissingMode

/-!
# Configuration

What a store is set up with, apart from its parameters: the policy for missing values, the
identifier of the run, and whether the environment is copied.
-/

namespace ChangelogParameters

/-- The identifier of a run that has none given: the last ten digits of the time, counted in
milliseconds. -/
def deploymentIdAt (milliseconds : Nat) : String :=
  let digits := Nat.toDigits 10 milliseconds
  String.ofList (digits.drop (digits.length - 10))

/-- What a store is set up with. -/
structure Config where
  /-- The policy for names without a value. -/
  missingMode : MissingMode := .preserve
  /-- The identifier of the run; made from the time if none is given. -/
  deploymentId : Option String := none
  /-- Whether the environment is copied into the store. -/
  seedEnvironment : Bool := false
deriving DecidableEq, Repr, Inhabited

namespace Config

/-- The stored form of a configuration. -/
def toMembers (config : Config) : List (String × Value) :=
  [("missingPropertyMode", .string config.missingMode.text),
    ("deploymentId", .ofOption config.deploymentId),
    ("seedEnvironment", .bool config.seedEnvironment)]

/-- The names of the fields, in order. -/
def fieldNames : List String :=
  (toMembers {}).map (·.1)

/-- The configuration that a value stores. -/
def ofValue? (v : Value) : Option Config := do
  let fields ← v.fields? fieldNames
  let d : Config := {}
  return {
    missingMode := ← Value.field? fields "missingPropertyMode" MissingMode.ofValue? d.missingMode
    deploymentId :=
      ← Value.field? fields "deploymentId" (Value.nullable? Value.string?) d.deploymentId
    seedEnvironment := ← Value.field? fields "seedEnvironment" Value.bool? d.seedEnvironment }

end Config

end ChangelogParameters
