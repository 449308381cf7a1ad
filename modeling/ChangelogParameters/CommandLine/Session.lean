import ChangelogParameters.CommandLine.Options
import ChangelogParameters.Defaults.File
import ChangelogParameters.Store.Operation

/-!
# Sessions

A session is the store that the options describe, with the position from which it is asked.  The
definitions of the options are registered before the parameters of the defaults file, so that
they go first; the parameters of the database are registered before both.
-/

namespace ChangelogParameters.CommandLine

/-! ### Surroundings -/

/-- What a run of the program finds around it. -/
structure Surroundings where
  /-- The variables of the environment. -/
  environment : List (String × String) := []
  /-- The text of the file at a path, if it has one. -/
  text? : String → Option String := fun _ => none
  /-- How documents are read. -/
  parse? : Defaults.Format → String → Option Value := Defaults.Format.parse?
  /-- The identifier of the run. -/
  runId : String := ""

/-- The variable that an entry of the environment sets; its name is not empty and ends before the
next equals sign. -/
def environmentEntry? (entry : String) : Option (String × String) :=
  match entry.toList with
  | [] => none
  | first :: rest =>
    match rest.span (· != '=') with
    | (name, _ :: value) => some (String.ofList (first :: name), String.ofList value)
    | (_, []) => none

/-! ### Failures -/

/-- Why the options describe no store. -/
inductive SessionError where
  /-- The defaults file does not load. -/
  | defaults (cause : Defaults.LoadError)
  /-- The condition on labels is no tag expression. -/
  | labels (cause : Expr.ParseError)
  /-- There is no changelog for the local parameters. -/
  | changelog (cause : Store.RegistrationError)
deriving DecidableEq

namespace SessionError

/-- The message for the user. -/
def message : SessionError → String
  | defaults cause => cause.message
  | labels _ => "invalid --labels expression"
  | changelog _ => "--local needs at least one --changelog"

/-- The messages of what lies behind the error. -/
def causes : SessionError → List String
  | defaults cause => cause.causes
  | labels cause => [cause.message]
  | changelog cause => [cause.message]

end SessionError

/-! ### Sessions -/

/-- A store and the position from which it is asked. -/
structure Session where
  /-- The store. -/
  store : Store
  /-- The innermost changelog, if there is one. -/
  position : Option Position
deriving DecidableEq

namespace Session

/-- The defaults that the options name. -/
def defaults (options : Options) (around : Surroundings) : Except SessionError Defaults :=
  match options.defaultsFile with
  | none => .ok {}
  | some path =>
    match Defaults.load path (around.text? path) around.parse? with
    | .ok defaults => .ok defaults
    | .error cause => .error (.defaults cause)

/-- What the store is built from. -/
def setup (options : Options) (around : Surroundings) (defaults : Defaults) : Store.Setup where
  config := {
    missingMode := (options.missingMode <|> defaults.missingMode).getD .preserve
    seedEnvironment := !options.noEnvironment }
  environment := around.environment
  profile := defaults.database
  generatedId := around.runId

/-- Texts as the values of their keys. -/
def textValues (entries : List (String × String)) : List (String × Value) :=
  entries.map fun (key, value) => (key, .string value)

/-- The store with all its global parameters. -/
def globalStore (options : Options) (around : Surroundings) (defaults : Defaults) : Store :=
  ((Store.build (setup options around defaults)).setAll
    (textValues options.definitions)).setDefaults defaults.entries

/-- What a run is started with: the options, and for the database also the store. -/
def filter (options : Options) (labels : Option Condition) (store : Store) : Filter where
  contexts := options.contexts.map Names.parse
  labels := labels
  database := options.database <|> store.filter.database

/-- The condition on labels that the options give. -/
def labels (options : Options) : Except SessionError (Option Condition) :=
  match options.labels with
  | none => .ok none
  | some text =>
    match Condition.parse text with
    | .ok condition => .ok (some condition)
    | .error cause => .error (.labels cause)

/-- The store with further local parameters at a position. -/
def addLocals (store : Store) (position : Option Position) :
    List (String × Value) → Except SessionError Store
  | [] => .ok store
  | (key, value) :: rest =>
    match store.setLocal key value position with
    | .ok store => addLocals store position rest
    | .error cause => .error (.changelog cause)

/-- The session that the options describe.  The defaults file is looked at first, then the
condition on labels, and the local parameters last. -/
def start (options : Options) (around : Surroundings) : Except SessionError Session := do
  let defaults ← defaults options around
  let labels ← labels options
  let globals := globalStore options around defaults
  let filtered := { globals with filter := filter options labels globals }
  let position := Position.chain? options.changelogs
  let store ← addLocals filtered position (textValues options.localDefinitions)
  return { store, position }

end Session

end ChangelogParameters.CommandLine
