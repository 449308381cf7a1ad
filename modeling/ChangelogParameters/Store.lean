import ChangelogParameters.Changelog
import ChangelogParameters.Database.Profile
import ChangelogParameters.MissingMode
import ChangelogParameters.Parameter.Filter
import ChangelogParameters.Store.Config

/-!
# The store

A store holds the parameters of a run in three tiers: the system tier, which is filled when the
store is built and never afterwards, the global tier, and the local tier, which has a bucket for
every logical path under which something was registered.  Registering only ever adds a parameter
at the end of the global tier or of one bucket; nothing is removed or replaced.
-/

namespace ChangelogParameters

/-! ### Buckets -/

/-- The local parameters by logical path, in the order in which the paths first occurred. -/
abbrev Buckets := List (String × List Parameter)

namespace Buckets

/-- The parameters of a logical path, oldest first. -/
def get (buckets : Buckets) (scope : String) : List Parameter :=
  (buckets.lookup scope).getD []

/-- Adds a parameter at the end of the bucket of a logical path, which is opened if need be. -/
def add (scope : String) (parameter : Parameter) : Buckets → Buckets
  | [] => [(scope, [parameter])]
  | (s, ps) :: rest =>
    if scope = s then (s, ps ++ [parameter]) :: rest else (s, ps) :: add scope parameter rest

/-- The number of parameters in all buckets. -/
def size : Buckets → Nat
  | [] => 0
  | (_, ps) :: rest => ps.length + size rest

@[simp] theorem get_nil (scope : String) : get [] scope = [] := rfl

/-- Adding a parameter to one bucket extends that bucket and no other. -/
theorem get_add (scope asked : String) (parameter : Parameter) (buckets : Buckets) :
    (add scope parameter buckets).get asked =
      buckets.get asked ++ if asked = scope then [parameter] else [] := by
  induction buckets with
  | nil =>
    by_cases h : asked = scope
    · simp [add, get, h]
    · simp [add, get, List.lookup_cons, beq_false_of_ne h, h]
  | cons bucket rest ih =>
    obtain ⟨s, ps⟩ := bucket
    simp only [add]
    by_cases hs : scope = s
    · subst hs
      by_cases h : asked = scope
      · simp [get, h]
      · simp [get, List.lookup_cons, beq_false_of_ne h, h]
    · simp only [hs, if_false]
      by_cases h : asked = s
      · subst h
        simp [get, Ne.symm hs]
      · simpa [get, List.lookup_cons, beq_false_of_ne h] using ih

end Buckets

/-! ### Stores -/

/-- The parameters of a run with what decides how they are looked up. -/
structure Store where
  /-- The parameters of the environment. -/
  system : List Parameter
  /-- The parameters that are seen everywhere. -/
  globals : List Parameter
  /-- The parameters that are seen from one logical path. -/
  locals : Buckets
  /-- What the run is started with. -/
  filter : Filter
  /-- The policy for names without a value. -/
  missingMode : MissingMode
  /-- The identifier of the run. -/
  deploymentId : String
deriving DecidableEq

namespace Store

/-- The number of parameters in all tiers. -/
def size (store : Store) : Nat :=
  store.system.length + store.globals.length + store.locals.size

/-- The logical paths with parameters, in the order in which they first occurred. -/
def scopes (store : Store) : List String :=
  store.locals.map (·.1)

/-! ### Registration -/

/-- Where a parameter is registered. -/
inductive Scope where
  /-- In the global tier. -/
  | everywhere
  /-- In the local tier, which takes a position. -/
  | within (position : Option Position)
deriving DecidableEq, Repr

/-- Why a parameter is not registered. -/
inductive RegistrationError where
  /-- A local parameter without a position. -/
  | missingChangelog (key : String)
  /-- A condition on contexts that is no tag expression. -/
  | invalidRestriction (cause : Expr.ParseError)
deriving DecidableEq, Repr

/-- The message for the user. -/
def RegistrationError.message : RegistrationError → String
  | missingChangelog key =>
    "changelog position is required when setting local parameter '" ++ key ++ "'"
  | invalidRestriction cause => "invalid parameter restriction: " ++ cause.message

/-- Registers a parameter in the global tier. -/
def setGlobal (store : Store) (key : String) (value : Value) (restrictions : Restrictions) :
    Store :=
  { store with globals := store.globals ++ [⟨key, value, restrictions, true⟩] }

/-- Registers a parameter without restrictions in the global tier. -/
def set (store : Store) (key : String) (value : Value) : Store :=
  store.setGlobal key value .none

/-- Registers a parameter in the local tier at a position. -/
def setAt (store : Store) (key : String) (value : Value) (restrictions : Restrictions)
    (position : Position) : Store :=
  { store with locals := store.locals.add position.scopeKey ⟨key, value, restrictions, true⟩ }

/-- Registers a parameter where a scope says. -/
def register (store : Store) (key : String) (value : Value) (restrictions : Restrictions) :
    Scope → Except RegistrationError Store
  | .everywhere => .ok (store.setGlobal key value restrictions)
  | .within none => .error (.missingChangelog key)
  | .within (some position) => .ok (store.setAt key value restrictions position)

/-- Registers a parameter without restrictions in the local tier. -/
def setLocal (store : Store) (key : String) (value : Value) (position : Option Position) :
    Except RegistrationError Store :=
  store.register key value .none (.within position)

/-- Registers a parameter whose restrictions are given as text; the text is read first. -/
def setProperty (store : Store) (key : String) (value : Value)
    (contexts labels databases : String) (scope : Scope) : Except RegistrationError Store :=
  match Restrictions.parse contexts labels databases with
  | .error cause => .error (.invalidRestriction cause)
  | .ok restrictions => store.register key value restrictions scope

/-- Registers several parameters without restrictions in the global tier. -/
def setAll (store : Store) (entries : List (String × Value)) : Store :=
  entries.foldl (fun s (key, value) => s.set key value) store

/-! ### Defaults -/

/-- What the key of an entry of a defaults file begins with if it is a parameter. -/
def defaultsPrefix : String := "parameter."

/-- The rest of a text that begins with another. -/
def dropStart? (start s : String) : Option String :=
  if start.toList.isPrefixOf s.toList then some (String.ofList (s.toList.drop start.length))
  else none

/-- There is a rest exactly if the text begins as asked. -/
theorem isSome_dropStart? (start s : String) :
    (dropStart? start s).isSome = start.toList.isPrefixOf s.toList := by
  unfold dropStart?
  cases start.toList.isPrefixOf s.toList <;> rfl

/-- The parameters among the entries of a defaults file, under their own keys. -/
def defaultsParameters (entries : List (String × Value)) : List (String × Value) :=
  entries.filterMap fun (key, value) => (dropStart? defaultsPrefix key).map (·, value)

/-- Registers the parameters of a defaults file in the global tier. -/
def setDefaults (store : Store) (entries : List (String × Value)) : Store :=
  store.setAll (defaultsParameters entries)

/-! ### Building -/

/-- What a store is built from. -/
structure Setup where
  /-- The configuration. -/
  config : Config := {}
  /-- The variables of the environment. -/
  environment : List (String × String) := []
  /-- Further parameters of the system tier. -/
  systemValues : List (String × Value) := []
  /-- The database, if it is known. -/
  profile : Option Profile := none
  /-- The identifier of the run if the configuration gives none. -/
  generatedId : String := ""
deriving DecidableEq, Inhabited

/-- The parameters of the system tier: the environment if it is asked for, and then the others. -/
def Setup.system (setup : Setup) : List Parameter :=
  (if setup.config.seedEnvironment then
    setup.environment.map fun (key, value) => .system key (.string value)
  else []) ++ setup.systemValues.map fun (key, value) => .system key value

/-- A store with its system tier and nothing else. -/
def Setup.bare (setup : Setup) : Store where
  system := setup.system
  globals := []
  locals := []
  filter := .unset
  missingMode := setup.config.missingMode
  deploymentId := setup.config.deploymentId.getD setup.generatedId

/-- Builds a store: the system tier, and, if the database is known, its parameters and a filter
for it. -/
def build (setup : Setup) : Store :=
  match setup.profile with
  | none => setup.bare
  | some profile =>
    { setup.bare.setAll profile.parameters with
      filter := { Filter.unset with database := some profile.shortName } }

end Store

end ChangelogParameters
