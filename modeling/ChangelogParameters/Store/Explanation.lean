import ChangelogParameters.Store.Lookup

/-!
# Explanations

An explanation of a look-up lists every parameter that has the key and is seen from the
position, in the order of look-up, with whether the run sees it, and tells which of them gave
the value.
-/

namespace ChangelogParameters

namespace Store

/-- A parameter that has the key asked for. -/
structure Candidate where
  /-- The tier in which it is kept. -/
  tier : Tier
  /-- The logical path of a local parameter. -/
  scope : Option String
  /-- The key as it was registered. -/
  key : String
  /-- The value. -/
  value : Value
  /-- The text of the condition on contexts. -/
  contexts : String
  /-- The text of the labels. -/
  labels : String
  /-- The text of the target databases. -/
  databases : String
  /-- Whether the filter applies even without restrictions. -/
  filterable : Bool
  /-- Whether the run sees it. -/
  accepted : Bool
deriving DecidableEq

/-- How a key comes by its value. -/
structure Explanation where
  /-- The key. -/
  key : String
  /-- The execution value that the key names. -/
  execution : Option ExecutionValue
  /-- The parameters that have the key, in the order of look-up. -/
  candidates : List Candidate
  /-- Which candidate gives the value. -/
  winner : Option Nat
  /-- The value. -/
  value : Option Value
deriving DecidableEq

/-- What an explanation says about an entry. -/
def candidate (store : Store) (entry : Entry) : Candidate where
  tier := entry.tier
  scope := entry.scope
  key := entry.parameter.key
  value := entry.parameter.value
  contexts := entry.parameter.restrictions.contexts.source
  labels := entry.parameter.restrictions.labels.text
  databases := entry.parameter.restrictions.databases.text
  filterable := entry.parameter.filterable
  accepted := store.filter.accepts entry.parameter

/-- The parameters that have a key, in the order of look-up. -/
def candidates (store : Store) (key : String) (position : Option Position) : List Candidate :=
  ((store.entries position).filter (·.parameter.answersTo key)).map store.candidate

/-- How a key comes by its value at a position. -/
def explain (store : Store) (key : String) (position : Option Position) : Explanation :=
  let candidates := store.candidates key position
  let execution := executionValue? key position
  { key := key
    execution := execution
    candidates := candidates
    winner := if execution.isSome then none else candidates.findIdx? (·.accepted)
    value := store.resolve key position }

namespace Candidate

/-- The stored form of a candidate. -/
def toValue (c : Candidate) : Value :=
  .object [("tier", .string c.tier.text), ("scope", .ofOption c.scope), ("key", .string c.key),
    ("value", c.value), ("contexts", .string c.contexts), ("labels", .string c.labels),
    ("databases", .string c.databases), ("filterable", .bool c.filterable),
    ("accepted", .bool c.accepted)]

end Candidate

namespace Explanation

/-- The stored form of an explanation. -/
def toValue (e : Explanation) : Value :=
  .object [("key", .string e.key),
    ("execution", .ofOption (e.execution.map ExecutionValue.label)),
    ("candidates", .array (e.candidates.map Candidate.toValue)),
    ("winner", (e.winner.map fun i => Value.ofInt i).getD .null),
    ("value", e.value.getD .null)]

end Explanation

end Store

end ChangelogParameters
