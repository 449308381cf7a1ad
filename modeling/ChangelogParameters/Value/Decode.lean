import ChangelogParameters.Value

/-!
# Reading data out of values

A value is data of a given shape or it is not.  A record is written as an object, in which
members of other names are passed over, or as an array of its fields in order, which may be
shorter than the record but not longer; fields that are not given have defaults.  A choice
between alternatives is written as the name of one, or as an object with that name as its only
key.
-/

namespace ChangelogParameters

namespace Value

/-! ### Plain data -/

/-- The text of a string. -/
def string? : Value → Option String
  | string s => some s
  | _ => none

/-- A truth value. -/
def bool? : Value → Option Bool
  | bool b => some b
  | _ => none

/-- An integer from zero up to a bound. -/
def natBelow? (bound : Nat) : Value → Option Nat
  | number (.integer n) => if 0 ≤ n ∧ n < bound then some n.toNat else none
  | _ => none

/-- The texts of an array of strings. -/
def strings? : Value → Option (List String)
  | array items => items.mapM string?
  | _ => none

/-- Data that may be null. -/
def nullable? {α : Type} (decode : Value → Option α) : Value → Option (Option α)
  | null => some none
  | v => (decode v).map some

/-! ### Records -/

/-- The fields given of a record, by name. -/
def fields? (names : List String) : Value → Option (List (String × Value))
  | object members => some members
  | array items => if items.length ≤ names.length then some (names.zip items) else none
  | _ => none

/-- One field of a record, or its default if it is not given. -/
def field? {α : Type} (fields : List (String × Value)) (name : String)
    (decode : Value → Option α) (default : α) : Option α :=
  match lookup? name fields with
  | some v => decode v
  | none => some default

/-! ### Alternatives -/

/-- The name of an alternative and what is given with it. -/
def alternative? : Value → Option (String × Option Value)
  | string name => some (name, none)
  | object [(name, v)] => some (name, some v)
  | _ => none

/-- Whether nothing is given with an alternative: no value, or null. -/
def nothingGiven : Option Value → Bool
  | none => true
  | some v => v.isNull

end Value

end ChangelogParameters
