import ChangelogParameters.MissingMode
import ChangelogParameters.Template
import ChangelogParameters.Text.Blank

/-!
# Expanding templates

Placeholders are replaced from left to right, those inside a body before the placeholder
itself.  The expanded body is the name that is looked up, without the blanks around it; but
if it begins with a colon the placeholder is an escape and stands for itself without the colon.
Values that have been put in are not searched for placeholders again.

An expansion tells which names were looked up, in order, whether or not it succeeds.
-/

namespace ChangelogParameters

/-! ### Outcomes -/

/-- A name that had to have a value and has none. -/
structure Unresolved where
  /-- The name, without the blanks around it. -/
  name : String
  /-- The file from which the text comes. -/
  location : Option String
deriving DecidableEq, Repr

/-- The message for the user. -/
def Unresolved.message (e : Unresolved) : String :=
  "could not resolve expression `$\x7b" ++ e.name ++ "\x7d`" ++
    (e.location.map (" in file " ++ ·)).getD ""

/-- A result, or the name that stood in its way, with the names looked up on the way. -/
structure Expansion (α : Type) where
  /-- The names looked up, in order. -/
  lookups : List String
  /-- The result, or the first name without a value. -/
  result : Except Unresolved α
deriving Repr

namespace Expansion

/-- A result for which nothing is looked up. -/
def done {α : Type} (a : α) : Expansion α := ⟨[], .ok a⟩

/-- Two expansions one after the other; the second is left out if the first fails. -/
def andThen {α β : Type} (x : Expansion α) (f : α → Expansion β) : Expansion β :=
  match x.result with
  | .error e => ⟨x.lookups, .error e⟩
  | .ok a =>
    let y := f a
    ⟨x.lookups ++ y.lookups, y.result⟩

instance : Monad Expansion where
  pure := done
  bind := andThen

end Expansion

/-! ### Expanders -/

/-- What an expansion needs to know: the policy for missing values, where the text comes from,
and the values. -/
structure Expander where
  /-- What becomes of a name without a value. -/
  mode : MissingMode
  /-- The file from which the text comes, named in errors. -/
  location : Option String
  /-- The value of a name. -/
  lookup : String → Option String

namespace Expander

/-- A placeholder with the given body. -/
def placeholder (body : List Char) : List Char :=
  Template.opening ++ body ++ ['\x7d']

/-- What becomes of a placeholder whose name has no value. -/
def missing (expander : Expander) (raw : List Char) (name : String) :
    Except Unresolved (List Char) :=
  match expander.mode with
  | .preserve => .ok (placeholder raw)
  | .empty => .ok []
  | .error => .error ⟨name, expander.location⟩

/-- What stands for a placeholder whose body has been expanded. -/
def substitute (expander : Expander) : List Char → Expansion (List Char)
  | ':' :: escaped => .done (placeholder (Text.trimChars escaped))
  | raw =>
    let name := String.ofList (Text.trimChars raw)
    match expander.lookup name with
    | some value => ⟨[name], .ok value.toList⟩
    | none => ⟨[name], expander.missing raw name⟩

/-- The expansion of a template. -/
def expandTemplate (expander : Expander) : Template → Expansion (List Char)
  | .rest text => .done text
  | .hole before body after => do
    let raw ← expander.expandTemplate body
    let value ← expander.substitute raw
    let behind ← expander.expandTemplate after
    pure (before ++ value ++ behind)

/-- The expansion of a text.  A text in which nothing is opened is given back as it is. -/
def expand (expander : Expander) (text : String) : Expansion String :=
  if (Template.splitAtOpening text.toList).isNone then .done text
  else do
    let expanded ← expander.expandTemplate (Template.ofChars text.toList)
    pure (String.ofList expanded)

end Expander

end ChangelogParameters
