import ChangelogParameters.Text.Blank
import ChangelogParameters.Text.Lowercase
import ChangelogParameters.Value.Decode

/-!
# Policies for missing values

A placeholder whose name has no value is left in place, removed, or reported, as the policy of
the run says.
-/

namespace ChangelogParameters

/-- What becomes of a placeholder whose name has no value. -/
inductive MissingMode where
  /-- It stays in the text. -/
  | preserve
  /-- Nothing is put in its place. -/
  | empty
  /-- The expansion fails. -/
  | error
deriving DecidableEq, Repr, Inhabited

namespace MissingMode

/-- The name of a policy. -/
def text : MissingMode → String
  | preserve => "preserve"
  | empty => "empty"
  | error => "error"

/-- The policy of a name, exactly as it is written. -/
def ofName? : String → Option MissingMode
  | "preserve" => some preserve
  | "empty" => some empty
  | "error" => some error
  | _ => none

/-- A text that names no policy. -/
structure Unknown where
  /-- The text, as given. -/
  source : String
deriving DecidableEq, Repr

/-- The message for the user. -/
def Unknown.message (e : Unknown) : String :=
  "unknown missing property mode: '" ++ e.source ++ "' (expected preserve, empty or error)"

/-- The policy that a text names, in any case and with blanks around it. -/
def parse (s : String) : Except Unknown MissingMode :=
  match ofName? (Text.lower (Text.trim s)) with
  | some mode => .ok mode
  | none => .error ⟨s⟩

/-- The policy that a value stores. -/
def ofValue? (v : Value) : Option MissingMode :=
  match v.alternative? with
  | some (name, given) => if Value.nothingGiven given then ofName? name else none
  | none => none

end MissingMode

end ChangelogParameters
