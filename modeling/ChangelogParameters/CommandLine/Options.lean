import ChangelogParameters.MissingMode
import ChangelogParameters.Text.Blank

/-!
# Options

Options are either settings, which take a value, or switches.  A setting that makes a list may be
given several times, and all others at most once at one place: before the query or after it.
What is given after the query replaces what is given before it; a list is replaced as a whole.
-/

namespace ChangelogParameters.CommandLine

/-! ### Names -/

/-- The options that take a value. -/
inductive Setting where
  /-- The defaults file. -/
  | defaultsFile
  /-- A global parameter that goes before those of the defaults file. -/
  | define
  /-- The active contexts. -/
  | contexts
  /-- The condition on labels. -/
  | labels
  /-- The database. -/
  | database
  /-- A changelog; the ones given later are included from the ones given before. -/
  | changelog
  /-- A parameter of the innermost changelog. -/
  | defineLocal
  /-- The policy for missing values. -/
  | missingMode
deriving DecidableEq, Repr

namespace Setting

/-- A setting as it is written. -/
def word : Setting → String
  | defaultsFile => "--defaults-file"
  | define => "-D"
  | contexts => "--contexts"
  | labels => "--labels"
  | database => "--database"
  | changelog => "--changelog"
  | defineLocal => "--local"
  | missingMode => "--missing-property-mode"

/-- All settings. -/
def all : List Setting :=
  [defaultsFile, define, contexts, labels, database, changelog, defineLocal, missingMode]

/-- The setting that is written in a given way. -/
def ofWord? (w : String) : Option Setting :=
  all.find? (·.word == w)

end Setting

/-- The options without a value. -/
inductive Switch where
  /-- The environment is not copied. -/
  | noEnvironment
  /-- Answers are written as values. -/
  | json
  /-- Log lines are written as values. -/
  | logJson
deriving DecidableEq, Repr

namespace Switch

/-- A switch as it is written. -/
def word : Switch → String
  | noEnvironment => "--no-env"
  | json => "--json"
  | logJson => "--log-json"

/-- All switches. -/
def all : List Switch := [noEnvironment, json, logJson]

/-- The switch that is written in a given way. -/
def ofWord? (w : String) : Option Switch :=
  all.find? (·.word == w)

end Switch

/-! ### Misuse -/

/-- Why arguments make no sense. -/
inductive Misuse where
  /-- An option that does not exist. -/
  | unknownOption (word : String)
  /-- A setting without a value. -/
  | missingValue (setting : Setting)
  /-- A value for an option that takes none. -/
  | needlessValue (word : String)
  /-- A value that a setting does not take. -/
  | refusedValue (setting : Setting) (value : String)
  /-- An option that is given twice. -/
  | repeated (word : String)
  /-- No query. -/
  | missingCommand
  /-- A query that does not exist. -/
  | unknownCommand (word : String)
  /-- A query of nothing. -/
  | missingOperand
  /-- An argument too many. -/
  | needlessOperand (word : String)
deriving DecidableEq, Repr

/-- The message for the user. -/
def Misuse.message : Misuse → String
  | unknownOption word => "unexpected option '" ++ word ++ "'"
  | missingValue setting => "a value is required for '" ++ setting.word ++ "'"
  | needlessValue word => "no value is expected for '" ++ word ++ "'"
  | refusedValue setting value =>
    "invalid value '" ++ value ++ "' for '" ++ setting.word ++ "'"
  | repeated word => "'" ++ word ++ "' cannot be used more than once"
  | missingCommand => "a command is required: resolve, expand or explain"
  | unknownCommand word => "unrecognized command '" ++ word ++ "'"
  | missingOperand => "a key or a text is required"
  | needlessOperand word => "unexpected argument '" ++ word ++ "'"

/-! ### Values -/

/-- The key and the value that an assignment gives: they stand before and after its first equals
sign, and the key is trimmed and not blank. -/
def assignment? (s : String) : Option (String × String) :=
  match s.toList.span (· != '=') with
  | (key, _ :: value) =>
    let key := Text.trimChars key
    if key.isEmpty then none else some (String.ofList key, String.ofList value)
  | (_, []) => none

/-- A path, which is not empty. -/
def path? (s : String) : Option String :=
  if s.isEmpty then none else some s

/-! ### Options in force -/

/-- What the options at one place say. -/
structure Options where
  /-- The defaults file. -/
  defaultsFile : Option String := none
  /-- The global parameters, as they were given. -/
  definitions : List (String × String) := []
  /-- The active contexts. -/
  contexts : Option String := none
  /-- The condition on labels. -/
  labels : Option String := none
  /-- The database. -/
  database : Option String := none
  /-- The changelogs, outermost first. -/
  changelogs : List String := []
  /-- The parameters of the innermost changelog, as they were given. -/
  localDefinitions : List (String × String) := []
  /-- The policy for missing values. -/
  missingMode : Option MissingMode := none
  /-- Whether the environment is left out. -/
  noEnvironment : Bool := false
  /-- Whether answers are written as values. -/
  json : Bool := false
  /-- Whether log lines are written as values. -/
  logJson : Bool := false
deriving DecidableEq, Repr, Inhabited

namespace Options

/-- The value of a setting that is given once. -/
def once {α : Type} (setting : Setting) (text : String) (given read : Option α) :
    Except Misuse (Option α) :=
  match given, read with
  | some _, _ => .error (.repeated setting.word)
  | none, some value => .ok (some value)
  | none, none => .error (.refusedValue setting text)

/-- The values of a setting that makes a list. -/
def more {α : Type} (setting : Setting) (text : String) (given : List α) (read : Option α) :
    Except Misuse (List α) :=
  match read with
  | some value => .ok (given ++ [value])
  | none => .error (.refusedValue setting text)

/-- The options with one more setting. -/
def give (o : Options) (setting : Setting) (text : String) : Except Misuse Options :=
  match setting with
  | .defaultsFile => do
    return { o with defaultsFile := ← once setting text o.defaultsFile (path? text) }
  | .define => do
    return { o with definitions := ← more setting text o.definitions (assignment? text) }
  | .contexts => do return { o with contexts := ← once setting text o.contexts (some text) }
  | .labels => do return { o with labels := ← once setting text o.labels (some text) }
  | .database => do return { o with database := ← once setting text o.database (some text) }
  | .changelog => do return { o with changelogs := ← more setting text o.changelogs (some text) }
  | .defineLocal => do
    return { o with
      localDefinitions := ← more setting text o.localDefinitions (assignment? text) }
  | .missingMode => do
    return { o with missingMode := ← once setting text o.missingMode (MissingMode.ofName? text) }

/-- A switch that was off is on. -/
def flip (switch : Switch) (given : Bool) : Except Misuse Bool :=
  if given then .error (.repeated switch.word) else .ok true

/-- The options with one more switch. -/
def turnOn (o : Options) (switch : Switch) : Except Misuse Options :=
  match switch with
  | .noEnvironment => do return { o with noEnvironment := ← flip switch o.noEnvironment }
  | .json => do return { o with json := ← flip switch o.json }
  | .logJson => do return { o with logJson := ← flip switch o.logJson }

/-- A list, or another one if it is empty. -/
def listMerge {α : Type} (inner outer : List α) : List α :=
  if inner.isEmpty then outer else inner

/-- The options in force: what `inner` says, and what `outer` says where `inner` is silent. -/
def merge (inner outer : Options) : Options where
  defaultsFile := inner.defaultsFile <|> outer.defaultsFile
  definitions := listMerge inner.definitions outer.definitions
  contexts := inner.contexts <|> outer.contexts
  labels := inner.labels <|> outer.labels
  database := inner.database <|> outer.database
  changelogs := listMerge inner.changelogs outer.changelogs
  localDefinitions := listMerge inner.localDefinitions outer.localDefinitions
  missingMode := inner.missingMode <|> outer.missingMode
  noEnvironment := inner.noEnvironment || outer.noEnvironment
  json := inner.json || outer.json
  logJson := inner.logJson || outer.logJson

end Options

end ChangelogParameters.CommandLine
