import ChangelogParameters.Value

/-!
# Trees of tables in TOML

The statements of a document build a tree of tables.  A table can be implied by the header of a
table inside it, or made by a dotted key, or be defined by its own header; the last can happen
once, also after the first.  A dotted key extends tables that dotted keys have made and no
others, and no key is given twice.
-/

namespace ChangelogParameters

namespace Toml

/-- How a table came into being. -/
inductive Origin where
  /-- By the header of a table inside it. -/
  | implied
  /-- By a dotted key. -/
  | dotted
  /-- By its own header. -/
  | defined
deriving DecidableEq, Repr

/-- What a key of a table stands for. -/
inductive Node where
  /-- A value, which nothing can be added to. -/
  | leaf (v : Value)
  /-- A table. -/
  | table (origin : Origin) (entries : List (String × Node))
  /-- Tables with one header, of which the last can be added to. -/
  | tables (done : List (List (String × Node))) (last : List (String × Node))

/-- The keys of a table with what they stand for. -/
abbrev Entries := List (String × Node)

/-! ### Values -/

mutual

/-- The value of a node. -/
def Node.toValue : Node → Value
  | .leaf v => v
  | .table _ entries => .ofMembers (toMembers entries)
  | .tables done last => .array (toValues done ++ [.ofMembers (toMembers last)])

/-- The values of the entries of a table. -/
def toMembers : List (String × Node) → List (String × Value)
  | [] => []
  | (key, node) :: rest => (key, node.toValue) :: toMembers rest

/-- The values of several tables. -/
def toValues : List (List (String × Node)) → List Value
  | [] => []
  | entries :: rest => .ofMembers (toMembers entries) :: toValues rest

end

/-! ### Changing entries -/

/-- The node of a key. -/
def find? (key : String) (entries : Entries) : Option Node :=
  (entries.find? fun (k, _) => k == key).map (·.2)

/-- The entries with another node for a key, which is added if it is not there. -/
def put (key : String) (node : Node) : Entries → Entries
  | [] => [(key, node)]
  | (k, n) :: rest => if k = key then (k, node) :: rest else (k, n) :: put key node rest

/-- Changes the table at a path.  Tables that are missing on the way come into being as
`origin` says; a dotted key does not pass through tables with a header of their own. -/
def descend (origin : Origin) : (path : List String) →
    (change : Origin → Entries → Option Entries) → (here : Origin) → Entries → Option Entries
  | [], change, here, entries => change here entries
  | key :: path, change, _, entries =>
    match find? key entries with
    | none =>
      (descend origin path change origin []).map fun inner =>
        put key (.table origin inner) entries
    | some (.leaf _) => none
    | some (.table there inner) =>
      if origin = .dotted ∧ there = .defined then none
      else (descend origin path change there inner).map fun inner =>
        put key (.table there inner) entries
    | some (.tables done last) =>
      (descend origin path change .defined last).map fun last =>
        put key (.tables done last) entries

/-! ### Statements -/

/-- Gives a value to a key.  The table of a dotted key has to be made by dotted keys, and that
of a simple key must not be. -/
def assign (path : List String) (key : String) (v : Value) :
    (here : Origin) → Entries → Option Entries :=
  descend .dotted path fun there entries =>
    if (there = .dotted ↔ path = []) ∨ (find? key entries).isSome then none
    else some (put key (.leaf v) entries)

/-- Defines the table of a key, which may have been implied before. -/
def openTable (key : String) (entries : Entries) : Option Entries :=
  match find? key entries with
  | none => some (put key (.table .defined []) entries)
  | some (.table .implied inner) => some (put key (.table .defined inner) entries)
  | some _ => none

/-- Begins the next table of those that share a key. -/
def openNext (key : String) (entries : Entries) : Option Entries :=
  match find? key entries with
  | none => some (put key (.tables [] []) entries)
  | some (.tables done last) => some (put key (.tables (done ++ [last]) []) entries)
  | some _ => none

end Toml

end ChangelogParameters
