import ChangelogParameters.Text.Blank
import ChangelogParameters.Value.Decode

/-!
# Database profiles

A profile describes the database that a run is for.  Its facts become parameters: a version or
a safety that is not known is left out, every other fact that is not known is null.
-/

namespace ChangelogParameters

/-- The database that a run is for. -/
structure Profile where
  /-- The name that target databases are compared with. -/
  shortName : String := ""
  /-- The name of the product. -/
  productName : String := ""
  /-- The version of the product. -/
  productVersion : Option String := none
  /-- The first number of the version. -/
  majorVersion : Option Nat := none
  /-- The second number of the version. -/
  minorVersion : Option Nat := none
  /-- What is added to columns that count by themselves. -/
  autoIncrementClause : Option String := none
  /-- The function for the current time. -/
  currentDateTimeFunction : Option String := none
  /-- The table that records what has run. -/
  changelogTableName : String := "SCHEMA_CHANGELOG"
  /-- The table that locks the database. -/
  changelogLockTableName : String := "SCHEMA_CHANGELOG_LOCK"
  /-- The catalog used unless another is named. -/
  defaultCatalogName : Option String := none
  /-- The schema used unless another is named. -/
  defaultSchemaName : Option String := none
  /-- The schema of the two tables above. -/
  trackingSchemaName : Option String := none
  /-- What a comment line starts with. -/
  lineComment : String := "--"
  /-- Whether updating is known to be safe or unsafe. -/
  isSafeToRunUpdate : Option Bool := none
  /-- Whether a password is needed. -/
  requiresPassword : Bool := true
  /-- Whether a user name is needed. -/
  requiresUsername : Bool := true
  /-- Whether checks of foreign keys can be turned off. -/
  supportsForeignKeyDisable : Bool := false
  /-- Whether constraints can be deferred from the start. -/
  supportsInitiallyDeferrableColumns : Bool := false
  /-- Whether foreign keys can restrict deletion. -/
  supportsRestrictForeignKeys : Bool := true
  /-- Whether there are schemas. -/
  supportsSchemas : Bool := true
  /-- Whether there are sequences. -/
  supportsSequences : Bool := true
  /-- Whether there are tablespaces. -/
  supportsTablespaces : Bool := false
  /-- Whether constraints against null can be named. -/
  supportsNotNullConstraintNames : Bool := false
deriving DecidableEq, Repr, Inhabited

namespace Profile

/-! ### Parameters -/

/-- What the default schema adds to a qualified name: a point and the schema, or nothing if the
schema is not set or blank. -/
def schemaPrefix (profile : Profile) : String :=
  match profile.defaultSchemaName with
  | some schema => if Text.isBlankText schema then "" else "." ++ schema
  | none => ""

/-- A parameter that is left out if its value is not known. -/
def whenKnown {α : Type} (key : String) (value : Option α) (toValue : α → Value) :
    List (String × Value) :=
  match value with
  | some a => [(key, toValue a)]
  | none => []

/-- The value of a natural number. -/
def ofNat (n : Nat) : Value := .ofInt n

/-- The parameters that describe the database, in the order in which they are registered. -/
def parameters (profile : Profile) : List (String × Value) :=
  [("database.autoIncrementClause", .ofOption profile.autoIncrementClause),
    ("database.currentDateTimeFunction", .ofOption profile.currentDateTimeFunction),
    ("database.changeLogLockTableName", .string profile.changelogLockTableName),
    ("database.changeLogTableName", .string profile.changelogTableName)] ++
  whenKnown "database.databaseMajorVersion" profile.majorVersion ofNat ++
  whenKnown "database.databaseMinorVersion" profile.minorVersion ofNat ++
  [("database.databaseProductName", .string profile.productName)] ++
  whenKnown "database.databaseProductVersion" profile.productVersion .string ++
  [("database.defaultCatalogName", .ofOption profile.defaultCatalogName),
    ("database.defaultSchemaName", .ofOption profile.defaultSchemaName),
    ("database.defaultSchemaNamePrefix", .string profile.schemaPrefix),
    ("database.lineComment", .string profile.lineComment),
    ("database.trackingSchemaName", .ofOption profile.trackingSchemaName),
    ("database.typeName", .string profile.shortName)] ++
  whenKnown "database.isSafeToRunUpdate" profile.isSafeToRunUpdate .bool ++
  [("database.requiresPassword", .bool profile.requiresPassword),
    ("database.requiresUsername", .bool profile.requiresUsername),
    ("database.supportsForeignKeyDisable", .bool profile.supportsForeignKeyDisable),
    ("database.supportsInitiallyDeferrableColumns",
      .bool profile.supportsInitiallyDeferrableColumns),
    ("database.supportsRestrictForeignKeys", .bool profile.supportsRestrictForeignKeys),
    ("database.supportsSchemas", .bool profile.supportsSchemas),
    ("database.supportsSequences", .bool profile.supportsSequences),
    ("database.supportsTablespaces", .bool profile.supportsTablespaces),
    ("database.supportsNotNullConstraintNames", .bool profile.supportsNotNullConstraintNames)]

/-! ### Stored form -/

/-- The stored form of a profile: every field under its name, null if it is not known. -/
def toMembers (p : Profile) : List (String × Value) :=
  [("shortName", .string p.shortName),
    ("productName", .string p.productName),
    ("productVersion", .ofOption p.productVersion),
    ("majorVersion", (p.majorVersion.map ofNat).getD .null),
    ("minorVersion", (p.minorVersion.map ofNat).getD .null),
    ("autoIncrementClause", .ofOption p.autoIncrementClause),
    ("currentDateTimeFunction", .ofOption p.currentDateTimeFunction),
    ("changelogTableName", .string p.changelogTableName),
    ("changelogLockTableName", .string p.changelogLockTableName),
    ("defaultCatalogName", .ofOption p.defaultCatalogName),
    ("defaultSchemaName", .ofOption p.defaultSchemaName),
    ("trackingSchemaName", .ofOption p.trackingSchemaName),
    ("lineComment", .string p.lineComment),
    ("isSafeToRunUpdate", (p.isSafeToRunUpdate.map .bool).getD .null),
    ("requiresPassword", .bool p.requiresPassword),
    ("requiresUsername", .bool p.requiresUsername),
    ("supportsForeignKeyDisable", .bool p.supportsForeignKeyDisable),
    ("supportsInitiallyDeferrableColumns", .bool p.supportsInitiallyDeferrableColumns),
    ("supportsRestrictForeignKeys", .bool p.supportsRestrictForeignKeys),
    ("supportsSchemas", .bool p.supportsSchemas),
    ("supportsSequences", .bool p.supportsSequences),
    ("supportsTablespaces", .bool p.supportsTablespaces),
    ("supportsNotNullConstraintNames", .bool p.supportsNotNullConstraintNames)]

/-- The names of the fields, in order. -/
def fieldNames : List String :=
  (toMembers {}).map (·.1)

/-- Version numbers are below this bound. -/
def versionBound : Nat := 4294967296

/-- The profile that a value stores. -/
def ofValue? (v : Value) : Option Profile := do
  let fields ← v.fields? fieldNames
  let d : Profile := {}
  let text (name : String) := Value.field? fields name Value.string?
  let textOrNull (name : String) := Value.field? fields name (Value.nullable? Value.string?)
  let version (name : String) :=
    Value.field? fields name (Value.nullable? (Value.natBelow? versionBound))
  let truth (name : String) := Value.field? fields name Value.bool?
  return {
    shortName := ← text "shortName" d.shortName
    productName := ← text "productName" d.productName
    productVersion := ← textOrNull "productVersion" d.productVersion
    majorVersion := ← version "majorVersion" d.majorVersion
    minorVersion := ← version "minorVersion" d.minorVersion
    autoIncrementClause := ← textOrNull "autoIncrementClause" d.autoIncrementClause
    currentDateTimeFunction := ← textOrNull "currentDateTimeFunction" d.currentDateTimeFunction
    changelogTableName := ← text "changelogTableName" d.changelogTableName
    changelogLockTableName := ← text "changelogLockTableName" d.changelogLockTableName
    defaultCatalogName := ← textOrNull "defaultCatalogName" d.defaultCatalogName
    defaultSchemaName := ← textOrNull "defaultSchemaName" d.defaultSchemaName
    trackingSchemaName := ← textOrNull "trackingSchemaName" d.trackingSchemaName
    lineComment := ← text "lineComment" d.lineComment
    isSafeToRunUpdate :=
      ← Value.field? fields "isSafeToRunUpdate" (Value.nullable? Value.bool?) d.isSafeToRunUpdate
    requiresPassword := ← truth "requiresPassword" d.requiresPassword
    requiresUsername := ← truth "requiresUsername" d.requiresUsername
    supportsForeignKeyDisable := ← truth "supportsForeignKeyDisable" d.supportsForeignKeyDisable
    supportsInitiallyDeferrableColumns :=
      ← truth "supportsInitiallyDeferrableColumns" d.supportsInitiallyDeferrableColumns
    supportsRestrictForeignKeys :=
      ← truth "supportsRestrictForeignKeys" d.supportsRestrictForeignKeys
    supportsSchemas := ← truth "supportsSchemas" d.supportsSchemas
    supportsSequences := ← truth "supportsSequences" d.supportsSequences
    supportsTablespaces := ← truth "supportsTablespaces" d.supportsTablespaces
    supportsNotNullConstraintNames :=
      ← truth "supportsNotNullConstraintNames" d.supportsNotNullConstraintNames }

end Profile

end ChangelogParameters
