import ChangelogParameters.Store

/-!
# Operations and runs

What is done to a store in the course of a run, as data.  An operation that fails leaves the
store as it was, and the run goes on with the next one.
-/

namespace ChangelogParameters

namespace Store

/-- Something done to a store. -/
inductive Operation where
  /-- Registers a global parameter without restrictions. -/
  | set (key : String) (value : Value)
  /-- Registers a global parameter. -/
  | setGlobal (key : String) (value : Value) (restrictions : Restrictions)
  /-- Registers a local parameter without restrictions. -/
  | setLocal (key : String) (value : Value) (position : Option Position)
  /-- Registers a parameter where a scope says. -/
  | register (key : String) (value : Value) (restrictions : Restrictions) (scope : Scope)
  /-- Registers a parameter with the texts of its restrictions. -/
  | setProperty (key : String) (value : Value) (contexts labels databases : String)
    (scope : Scope)
  /-- Registers several global parameters without restrictions. -/
  | setAll (entries : List (String × Value))
  /-- Registers the parameters of a defaults file. -/
  | setDefaults (entries : List (String × Value))
  /-- Replaces the filter. -/
  | setFilter (filter : Filter)
  /-- Replaces the active contexts. -/
  | setContexts (contexts : Option Names)
  /-- Replaces the condition on labels. -/
  | setLabels (labels : Option Condition)
  /-- Replaces the database. -/
  | setDatabase (database : Option String)
  /-- Replaces the policy for missing values. -/
  | setMissingMode (mode : MissingMode)
deriving DecidableEq

/-- The store after an operation, or why it failed. -/
def perform (store : Store) : Operation → Except RegistrationError Store
  | .set key value => .ok (store.set key value)
  | .setGlobal key value restrictions => .ok (store.setGlobal key value restrictions)
  | .setLocal key value position => store.setLocal key value position
  | .register key value restrictions scope => store.register key value restrictions scope
  | .setProperty key value contexts labels databases scope =>
    store.setProperty key value contexts labels databases scope
  | .setAll entries => .ok (store.setAll entries)
  | .setDefaults entries => .ok (store.setDefaults entries)
  | .setFilter filter => .ok { store with filter := filter }
  | .setContexts contexts => .ok { store with filter := { store.filter with contexts } }
  | .setLabels labels => .ok { store with filter := { store.filter with labels } }
  | .setDatabase database => .ok { store with filter := { store.filter with database } }
  | .setMissingMode mode => .ok { store with missingMode := mode }

/-- The store after an operation; the same store if the operation fails. -/
def after (store : Store) (operation : Operation) : Store :=
  match store.perform operation with
  | .ok store' => store'
  | .error _ => store

/-- The store after a sequence of operations. -/
def run (store : Store) (operations : List Operation) : Store :=
  operations.foldl after store

end Store

end ChangelogParameters
