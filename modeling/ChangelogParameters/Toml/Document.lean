import ChangelogParameters.Toml.Quoted
import ChangelogParameters.Toml.Scalar
import ChangelogParameters.Toml.Tree

/-!
# TOML documents

A document is a sequence of lines: headers, which say what table comes next, and keys with
values.  Reading one yields its statements; carried out in order they build the table of the
whole document, unless two of them contradict each other.
-/

namespace ChangelogParameters

namespace Toml

/-! ### Keys -/

/-- Passes over the space on a line. -/
def skipSpace : Reader Unit := Reader.skipWhile isSpace

/-- Whether a character can be part of a key without quotes. -/
def isKeyChar (c : Char) : Bool := c.isAlphanum || c == '_' || c == '-'

/-- Reads a part of a key. -/
def readKeyPart : Reader String := do
  match ← Reader.look with
  | some '"' => readLineText
  | some '\'' => readLineText
  | _ => return String.ofList (← Reader.takeWhile1 isKeyChar)

/-- How deeply tables and arrays may be nested. -/
def nestingBound : Nat := 79

/-- Reads the parts of a key, with points between them and space around them; there are at most
as many of them as tables may be nested. -/
def readKey : Reader (List String) := do
  let parts ← Reader.separated (do
    skipSpace
    let part ← readKeyPart
    skipSpace
    pure part) (Reader.char '.')
  if parts.length ≤ nestingBound then pure parts else Reader.fail

/-! ### Lines -/

/-- Passes over a comment, if there is one, up to the end of its line. -/
def skipComment : Reader Unit := do
  match ← Reader.look with
  | some '#' => Reader.skipWhile isPlain
  | _ => pure ()

/-- Reads a line break. -/
def lineBreak : Reader Unit
  | '\n' :: rest => some ((), rest)
  | '\r' :: '\n' :: rest => some ((), rest)
  | _ => none

/-- Passes over space, comments and line breaks. -/
def skipLines : Reader Unit := do
  let _ ← Reader.many (do skipSpace; skipComment; lineBreak)
  skipSpace
  skipComment

/-- Passes over the rest of a line that says nothing more. -/
def endLine : Reader Unit := do
  skipSpace
  skipComment
  match ← Reader.look with
  | none => pure ()
  | some _ => lineBreak

/-! ### Values -/

/-- Carries out an assignment in a table of its own. -/
def assignInline (entries : Entries) : List String × Value → Option Entries
  | (path, v) =>
    match path.getLast? with
    | some key => assign path.dropLast key v .defined entries
    | none => none

/-- The value of an inline table with the given assignments. -/
def inlineTable? (assignments : List (List String × Value)) : Option Value :=
  (assignments.foldlM assignInline []).map fun entries => (Node.table .defined entries).toValue

/-- Reads the items of an array up to the closing bracket; a comma may follow the last one. -/
def readItems (item : Reader Value) : Reader (List Value) := do
  let items ← Reader.many (do
    skipLines
    let v ← item
    skipLines
    match ← Reader.look with
    | some ',' => Reader.char ','; pure (v, true)
    | _ => pure (v, false))
  skipLines
  Reader.char ']'
  -- only the last item may lack its comma
  if items.dropLast.all (·.2) then pure (items.map (·.1)) else Reader.fail

/-- Reads the assignments of an inline table up to the closing brace. -/
def readAssignments (item : Reader Value) : Reader (List (List String × Value)) := do
  skipSpace
  match ← Reader.look with
  | some '\x7d' => Reader.char '\x7d'; pure []
  | _ =>
    let assignments ← Reader.separated (do
      let path ← readKey
      Reader.char '='
      skipSpace
      let v ← item
      skipSpace
      pure (path, v)) (Reader.char ',')
    Reader.char '\x7d'
    pure assignments

/-- Reads a value that is neither an array nor an inline table. -/
def readLeaf : Reader Value := do
  match ← Reader.look with
  | some '"' => return .string (← readText)
  | some '\'' => return .string (← readText)
  | _ => readScalar

/-- Reads a value in which arrays and inline tables are nested at most as deeply as the bound. -/
def readValue : (bound : Nat) → Reader Value
  | 0 => readLeaf
  | bound + 1 => do
    match ← Reader.look with
    | some '[' =>
      Reader.char '['
      return .array (← readItems (readValue bound))
    | some '\x7b' =>
      Reader.char '\x7b'
      match inlineTable? (← readAssignments (readValue bound)) with
      | some v => pure v
      | none => Reader.fail
    | _ => readLeaf

/-! ### Statements -/

/-- A line of a document that says something. -/
inductive Statement where
  /-- The keys that follow belong to the table of a path. -/
  | header (path : List String)
  /-- The keys that follow belong to a further table of a path. -/
  | nextHeader (path : List String)
  /-- A key has a value. -/
  | assignment (path : List String) (v : Value)
deriving DecidableEq

/-- Reads a statement up to the end of its line. -/
def readStatement : Reader Statement := do
  skipLines
  let statement ← match ← Reader.look with
    | some '[' => do
      Reader.char '['
      if (← Reader.look) == some '[' then
        Reader.char '['
        let path ← readKey
        Reader.word "]]"
        pure (Statement.nextHeader path)
      else
        let path ← readKey
        Reader.char ']'
        pure (Statement.header path)
    | _ => do
      let path ← readKey
      Reader.char '='
      skipSpace
      let v ← readValue nestingBound
      pure (Statement.assignment path v)
  endLine
  pure statement

/-- Reads a whole document; a mark of the byte order may come first. -/
def readStatements : Reader (List Statement) := do
  let _ ← Reader.optional? (Reader.char '\uFEFF')
  let statements ← Reader.many readStatement
  skipLines
  Reader.atEnd
  pure statements

/-! ### Documents -/

/-- Changes the last table of a path, which a header leads to. -/
def atHeader (path : List String) (change : String → Entries → Option Entries)
    (root : Entries) : Option Entries :=
  match path.getLast? with
  | some key => descend .implied path.dropLast (fun _ => change key) .defined root
  | none => none

/-- Carries out a statement on the table of the document and the path of the current header. -/
def Statement.perform (state : List String × Entries) :
    Statement → Option (List String × Entries)
  | .header path => (atHeader path openTable state.2).map (path, ·)
  | .nextHeader path => (atHeader path openNext state.2).map (path, ·)
  | .assignment path v =>
    match path.getLast? with
    | some key =>
      (descend .implied state.1 (assign path.dropLast key v) .defined state.2).map (state.1, ·)
    | none => none

/-- The value of a document. -/
def parse? (s : String) : Option Value := do
  let statements ← readStatements.run s
  let (_, root) ← statements.foldlM Statement.perform ([], [])
  return (Node.table .defined root).toValue

end Toml

end ChangelogParameters
