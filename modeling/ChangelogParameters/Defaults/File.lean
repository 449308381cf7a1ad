import ChangelogParameters.Defaults
import ChangelogParameters.Text.Lowercase
import ChangelogParameters.Toml.Document
import ChangelogParameters.Yaml.Document

/-!
# Defaults files

The format of a defaults file is told by the extension of its name.  The file is read only if
the format is known, and what it says counts only if all of it can be understood.
-/

namespace ChangelogParameters

namespace Defaults

/-! ### Formats -/

/-- The parts of a path between slashes; empty parts and single points say nothing. -/
def pathParts (path : String) : List (List Char) :=
  (Text.pieces '/' path.toList).filter fun part => part != [] && part != ['.']

/-- The name of the file at the end of a path; two points are no name. -/
def fileName? (path : String) : Option (List Char) :=
  (pathParts path).getLast?.filter (· != ['.', '.'])

/-- What follows the last point of a file name, unless nothing stands before that point. -/
def extension? (name : List Char) : Option String :=
  match name.reverse.span (· != '.') with
  | (_, []) | (_, [_]) => none
  | (after, _) => some (String.ofList after.reverse)

/-- The formats of defaults files. -/
inductive Format where
  | toml
  | yaml
deriving DecidableEq, Repr

/-- The format with an extension, in whatever case its letters are. -/
def Format.ofExtension? (extension : String) : Option Format :=
  if Text.equalIgnoringAsciiCase extension "toml" then some .toml
  else if Text.equalIgnoringAsciiCase extension "yaml" then some .yaml
  else if Text.equalIgnoringAsciiCase extension "yml" then some .yaml
  else none

/-- The format of the file at a path. -/
def Format.ofPath? (path : String) : Option Format :=
  ((fileName? path).bind extension?).bind Format.ofExtension?

/-- The value that a document stands for. -/
def Format.parse? : Format → String → Option Value
  | toml => Toml.parse?
  | yaml => Yaml.parse?

/-! ### Loading -/

/-- Why a file gives no defaults. -/
inductive LoadError where
  /-- The extension belongs to no format. -/
  | unsupported (path : String)
  /-- The file is missing or is no text. -/
  | unreadable (path : String)
  /-- The text breaks the rules of the format. -/
  | malformed (path : String)
  /-- The document is understood, but is no defaults document. -/
  | invalid (path : String) (cause : Fault)
deriving DecidableEq

namespace LoadError

/-- The message for the user. -/
def message : LoadError → String
  | unsupported path =>
    "unsupported defaults file '" ++ path ++ "' (expected .toml, .yaml or .yml)"
  | unreadable path => "failed to read defaults file '" ++ path ++ "'"
  | malformed path => "failed to parse defaults file '" ++ path ++ "'"
  | invalid path _ => "failed to parse defaults file '" ++ path ++ "'"

/-- The messages of what lies behind the error. -/
def causes : LoadError → List String
  | unsupported _ => []
  | unreadable _ => ["the file is missing or is not UTF-8 text"]
  | malformed _ => ["the text is not well formed"]
  | invalid _ cause => [cause.message]

end LoadError

/-- The defaults in the file at a path with the given text, if it has one.  How documents are read
may be chosen. -/
def load (path : String) (text : Option String)
    (parse? : Format → String → Option Value := Format.parse?) : Except LoadError Defaults :=
  match Format.ofPath? path with
  | none => .error (.unsupported path)
  | some format =>
    match text with
    | none => .error (.unreadable path)
    | some text =>
      match parse? format text with
      | none => .error (.malformed path)
      | some v =>
        match ofValue v with
        | .ok defaults => .ok defaults
        | .error cause => .error (.invalid path cause)

/-- A file loads exactly if its format is known, it has a text, and the value that the text stands
for in the format describes defaults. -/
theorem load_eq_ok_iff {path : String} {text : Option String}
    {parse? : Format → String → Option Value} {loaded : Defaults} :
    load path text parse? = .ok loaded ↔ ∃ format s v, Format.ofPath? path = some format ∧
      text = some s ∧ parse? format s = some v ∧ ofValue v = .ok loaded := by
  constructor
  · intro h
    rw [load] at h
    split at h
    · cases h
    next format hformat =>
    split at h
    · cases h
    next s =>
    split at h
    · cases h
    next v hparse =>
    split at h
    next defaults hvalue =>
      cases h
      exact ⟨format, s, v, hformat, rfl, hparse, hvalue⟩
    · cases h
  · rintro ⟨format, s, v, hformat, rfl, hparse, hvalue⟩
    simp [load, hformat, hparse, hvalue]

end Defaults

end ChangelogParameters
