import ChangelogParameters.Text.Blank
import ChangelogParameters.Text.Lowercase

/-!
# Target databases

A parameter may say for which databases it is meant, by a list of short names.  A name behind
an exclamation mark excludes a database, and two keywords accept or reject every one.  A list
of exclusions alone accepts all the others.
-/

namespace ChangelogParameters

/-- The databases that a parameter is meant for. -/
inductive Targets where
  /-- No databases were named. -/
  | any
  /-- The databases that the names describe, in the order given. -/
  | only (names : List String)
deriving DecidableEq, Repr

namespace Targets

instance : Inhabited Targets := ⟨any⟩

/-- The keyword that accepts every database. -/
def allKeyword : String := "all"

/-- The keyword that rejects every database. -/
def noneKeyword : String := "none"

/-! ### Building -/

/-- How a short name is compared: trimmed and lower-cased. -/
def normalize (name : String) : String :=
  Text.lower (Text.trim name)

/-- Adds a name at the end unless it is blank or there already. -/
def addName (names : List String) (name : String) : List String :=
  if name = "" ∨ name ∈ names then names else names ++ [name]

/-- The targets described by names given one by one; blank names and repetitions are dropped,
and if nothing is left no databases were named. -/
def ofTexts (texts : List String) : Targets :=
  match (texts.map normalize).foldl addName [] with
  | [] => any
  | names => only names

/-- The targets described by a comma separated text. -/
def parse (s : String) : Targets :=
  ofTexts (Text.commaSeparated s)

/-! ### Asking and showing -/

/-- The names given, none if no databases were named. -/
def names : Targets → List String
  | any => []
  | only names => names

/-- Whether any names were given. -/
def isRestricted (targets : Targets) : Bool :=
  !targets.names.isEmpty

/-- Whether a normalised name excludes databases rather than including them. -/
def isExclusion (name : String) : Bool :=
  name.toList.head? == some '!'

/-- The names that do not exclude anything. -/
def included (names : List String) : List String :=
  names.filter fun name => !isExclusion name

/-- The normalised name that excludes exactly one database. -/
def excluding (database : String) : String :=
  "!" ++ database

/-- Whether normalised names, not empty, accept a normalised database.  The keywords come
first, then exclusions, and a database that is not excluded has to be included only if some
database is. -/
def acceptsAmong (names : List String) (database : String) : Bool :=
  if names.contains allKeyword then true
  else if names.contains noneKeyword then false
  else if names.contains (excluding database) then false
  else (included names).isEmpty || (included names).contains database

/-- Whether a database, in any case, is among the targets. -/
def accepts (targets : Targets) (database : String) : Bool :=
  targets.names.isEmpty || acceptsAmong (targets.names.map normalize) (normalize database)

/-- The names separated by commas, or the keyword for all. -/
def text : Targets → String
  | any => allKeyword
  | only names => ",".intercalate names

end Targets

end ChangelogParameters
