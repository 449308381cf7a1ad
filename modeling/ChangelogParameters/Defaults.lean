import ChangelogParameters.Database.Profile
import ChangelogParameters.MissingMode
import ChangelogParameters.Value.Text

/-!
# Defaults

A defaults document is a table.  Its member `database` describes the database, and its member
`missingPropertyMode` names the policy for missing values.  All other members are flattened: an
entry for every leaf, whose key joins the keys on the way to the leaf with points.
-/

namespace ChangelogParameters

/-! ### Flattening -/

namespace Value

mutual

/-- The leaves of a value, each with the keys on the way to it, in the order of the members.  A
leaf is anything but an object with members. -/
def leaves : Value → List (List String × Value)
  | .object (member :: members) => leavesOfMembers (member :: members)
  | v => [([], v)]

/-- The leaves of the members of an object. -/
def leavesOfMembers : List (String × Value) → List (List String × Value)
  | [] => []
  | (key, v) :: rest =>
    v.leaves.map (fun (path, leaf) => (key :: path, leaf)) ++ leavesOfMembers rest

end

/-- The members of an object flattened: its leaves, each under the keys on the way to it, joined
with points. -/
def flattened (members : List (String × Value)) : List (String × Value) :=
  (leavesOfMembers members).map fun (path, leaf) => (".".intercalate path, leaf)

end Value

/-! ### Documents -/

/-- What a defaults document says. -/
structure Defaults where
  /-- The flattened entries. -/
  entries : List (String × Value) := []
  /-- The database, if it is described. -/
  database : Option Profile := none
  /-- The policy for missing values, if it is named. -/
  missingMode : Option MissingMode := none
deriving DecidableEq, Inhabited

namespace Defaults

/-- Why a value is no defaults document. -/
inductive Fault where
  /-- It is no table. -/
  | notTable (found : Value)
  /-- The description of the database has another shape. -/
  | invalidDatabase
  /-- The policy for missing values is no text. -/
  | modeNotText (found : Value)
  /-- The policy for missing values is not known. -/
  | unknownMode (cause : MissingMode.Unknown)
deriving DecidableEq

/-- The key of the description of the database. -/
def databaseKey : String := "database"

/-- The key of the policy for missing values. -/
def missingModeKey : String := "missingPropertyMode"

/-- The message for the user. -/
def Fault.message : Fault → String
  | notTable found => "top level must be a table, found " ++ found.compact
  | invalidDatabase => "invalid [" ++ databaseKey ++ "] table"
  | modeNotText found => missingModeKey ++ " must be a string, found " ++ found.compact
  | unknownMode cause => cause.message

/-- The database that a table describes. -/
def databaseOf (table : List (String × Value)) : Except Fault (Option Profile) :=
  match Value.lookup? databaseKey table with
  | none => .ok none
  | some v =>
    match Profile.ofValue? v with
    | some profile => .ok (some profile)
    | none => .error .invalidDatabase

/-- The policy for missing values that a table names. -/
def missingModeOf (table : List (String × Value)) : Except Fault (Option MissingMode) :=
  match Value.lookup? missingModeKey table with
  | none => .ok none
  | some (.string s) =>
    match MissingMode.parse s with
    | .ok mode => .ok (some mode)
    | .error cause => .error (.unknownMode cause)
  | some found => .error (.modeNotText found)

/-- The members of a table that are parameters or other entries. -/
def ordinaryMembers (table : List (String × Value)) : List (String × Value) :=
  Value.without missingModeKey (Value.without databaseKey table)

/-- What a table says; the database is looked at first. -/
def ofTable (table : List (String × Value)) : Except Fault Defaults := do
  let database ← databaseOf table
  let missingMode ← missingModeOf table
  return { entries := Value.flattened (ordinaryMembers table), database, missingMode }

/-- What a document says; an empty one says nothing. -/
def ofValue : Value → Except Fault Defaults
  | .object table => ofTable table
  | .null => .ok {}
  | found => .error (.notTable found)

end Defaults

end ChangelogParameters
