/-!
# Readers

A reader takes what it needs from the front of a list, of characters or of tokens, and returns
what is left, or fails.  The formats of this library are read by composing readers; repetition
ends where an item fails or leaves as much as it found, so every reader here is total.
-/

namespace ChangelogParameters

/-- A function that reads a prefix of a list. -/
abbrev ListReader (τ : Type) := StateT (List τ) Option

/-- A function that reads a prefix of a text. -/
abbrev Reader := ListReader Char

namespace Reader

variable {τ α β : Type}

/-! ### Single elements -/

/-- Reads nothing and fails. -/
def fail : ListReader τ α := fun _ => none

/-- The next element, which stays where it is; none at the end. -/
def look : ListReader τ (Option τ) := fun cs => some (cs.head?, cs)

/-- Reads the next element if it has a property. -/
def satisfy (p : τ → Bool) : ListReader τ τ
  | c :: cs => if p c then some (c, cs) else none
  | [] => none

/-- Succeeds, and reads nothing, where what is left has a property. -/
def ahead (p : List τ → Bool) : ListReader τ Unit := fun cs => if p cs then some ((), cs) else none

/-- Succeeds at the end. -/
def atEnd : ListReader τ Unit
  | [] => some ((), [])
  | _ :: _ => none

/-! ### Characters -/

/-- Reads one given character. -/
def char (c : Char) : Reader Unit := do
  let _ ← satisfy (· == c)

/-- Reads the given characters. -/
def chars : List Char → Reader Unit
  | [] => pure ()
  | c :: cs => do char c; chars cs

/-- Reads the characters of a text. -/
def word (s : String) : Reader Unit := chars s.toList

/-! ### Runs -/

/-- Reads the longest prefix of characters with a property, possibly none. -/
def takeWhile (p : Char → Bool) : Reader (List Char) :=
  fun cs => some (cs.takeWhile p, cs.dropWhile p)

/-- Reads the longest prefix of characters with a property, at least one. -/
def takeWhile1 (p : Char → Bool) : Reader (List Char) := do
  let cs ← takeWhile p
  if cs.isEmpty then fail else pure cs

/-- Passes over the longest prefix of characters with a property. -/
def skipWhile (p : Char → Bool) : Reader Unit := do
  let _ ← takeWhile p

/-! ### Alternatives and repetition -/

/-- Reads an item if it is there. -/
def optional? (item : ListReader τ α) : ListReader τ (Option α) :=
  fun cs => match item cs with
    | some (a, rest) => some (some a, rest)
    | none => some (none, cs)

/-- The items read one after the other until one fails or reads nothing, and what is left. -/
def repeated (item : ListReader τ α) (cs : List τ) : List α × List τ :=
  match item cs with
  | none => ([], cs)
  | some (a, rest) =>
    if rest.length < cs.length then
      let (as, rest') := repeated item rest
      (a :: as, rest')
    else ([], cs)
termination_by cs.length

/-- Reads items as long as there are any. -/
def many (item : ListReader τ α) : ListReader τ (List α) :=
  fun cs => some (repeated item cs)

/-- Reads at least one item, with something between any two. -/
def separated (item : ListReader τ α) (separator : ListReader τ β) : ListReader τ (List α) := do
  let first ← item
  let rest ← many (do let _ ← separator; item)
  pure (first :: rest)

/-- What a reader makes of a whole text. -/
def run (reader : Reader α) (s : String) : Option α :=
  match reader s.toList with
  | some (a, []) => some a
  | _ => none

end Reader

end ChangelogParameters
