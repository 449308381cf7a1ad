import ChangelogParameters.Yaml.Token

/-!
# Block scalars in YAML

The lines behind a bar or an angle bracket that are indented far enough are a scalar, without that
indentation.  Behind a bar every line break counts.  Behind an angle bracket a line break between
two lines that do not begin with a space is one space, and blank lines between such lines are the
only breaks.  What counts of the breaks at the end is said in front of the lines.
-/

namespace ChangelogParameters

namespace Yaml

/-! ### Headers -/

/-- Which line breaks at the end of a block count. -/
inductive Chomping where
  /-- None. -/
  | strip
  /-- That of the last line, but not those of the blank lines behind it. -/
  | clip
  /-- All. -/
  | keep
deriving DecidableEq, Repr

/-- What stands in front of a block. -/
structure BlockHeader where
  /-- Whether line breaks between lines become spaces. -/
  folded : Bool
  /-- What counts at the end. -/
  chomping : Chomping
  /-- How much further the block is indented than what is around it, if that is said. -/
  increment : Option Nat
deriving Repr

/-- Reads a sign for what counts at the end. -/
def readChomping : Reader Chomping := do
  let sign ← Reader.satisfy fun c => c == '+' || c == '-'
  return if sign == '+' then .keep else .strip

/-- Reads how much further a block is indented, at least by one. -/
def readIncrement : Reader Nat := do
  let digit ← Reader.satisfy fun c => c.isDigit && c != '0'
  return Text.ofDigits 10 [digit]

/-- Reads the line in front of a block.  The sign may stand on either side of the number. -/
def readBlockHeader : Reader BlockHeader := do
  let mark ← Reader.satisfy fun c => c == '|' || c == '>'
  let before ← Reader.optional? readChomping
  let increment ← Reader.optional? readIncrement
  let behind ← if before.isNone && increment.isSome then Reader.optional? readChomping
    else pure none
  readLineEnd
  return ⟨mark == '>', (before <|> behind).getD .clip, increment⟩

/-! ### Lines -/

/-- Reads spaces, at most as many as given, and counts them. -/
def readSpaces (most : Nat) : Reader Nat := fun cs =>
  let count := min most (cs.takeWhile (· == ' ')).length
  some (count, cs.drop count)

/-- Reads a blank line with at most as many spaces as given. -/
def readBlankLine (most : Nat) : Reader Char := do
  let _ ← readSpaces most
  Reader.satisfy isBreak

/-- A line of a block, without its indentation. -/
structure BlockLine where
  /-- What stands on the line. -/
  text : List Char
  /-- The line break behind it; there may be none at the end of the document. -/
  lineBreak : Option Char
  /-- The breaks of the blank lines that follow. -/
  blank : List Char
deriving Repr

/-- Whether a line begins with a space of its own. -/
def BlockLine.isSpaced (line : BlockLine) : Bool := (line.text.head?.map isSpace).getD false

/-- Reads a line of a block, and the blank lines that follow. -/
def readBlockLine (indent : Nat) : Reader BlockLine := do
  let spaces ← readSpaces indent
  if spaces < indent then Reader.fail
  let text ← Reader.takeWhile1 fun c => !isBreak c
  let lineBreak ← Reader.optional? (Reader.satisfy isBreak)
  return ⟨text, lineBreak, ← Reader.many (readBlankLine indent)⟩

/-- Reads the blank lines at the start of a block, and tells how far it is indented.  If that is not
said, it is as far as the first line or a blank line before it, but further than what is around. -/
def readBlockStart (around : Nat) : Option Nat → Reader (Nat × List Char)
  | some increment => do
    return (around + increment, ← Reader.many (readBlankLine (around + increment)))
  | none => do
    let blank ← Reader.many (do
      let spaces ← Reader.takeWhile (· == ' ')
      return (spaces.length, ← Reader.satisfy isBreak))
    let first := ((← get).takeWhile (· == ' ')).length
    Reader.ahead fun cs => cs[first]? != some '\t'
    return ((blank.map (·.1)).foldl max (max first (around + 1)), blank.map (·.2))

/-- Reads the spaces behind a block.  A tab must not stand where its indentation could go on. -/
def readBlockEnd (indent : Nat) : Reader Unit := do
  let spaces ← readSpaces indent
  Reader.ahead fun cs => spaces == indent || cs.head? != some '\t'

/-! ### Texts -/

/-- What stands between two lines of a block: a line break and those of blank lines. -/
def BlockHeader.joint (header : BlockHeader) (spaced : Bool) (lineBreak : Option Char)
    (blank : List Char) : List Char :=
  if header.folded && !spaced && lineBreak == some '\n' then
    if blank.isEmpty then [' '] else blank
  else lineBreak.toList ++ blank

/-- What the line breaks at the end of a block stand for. -/
def Chomping.tail (lineBreak : Option Char) (blank : List Char) : Chomping → List Char
  | strip => []
  | clip => lineBreak.toList
  | keep => lineBreak.toList ++ blank

/-- The text of the lines behind a line. -/
def BlockHeader.textBehind (header : BlockHeader) (line : BlockLine) :
    List BlockLine → List Char
  | [] => header.chomping.tail line.lineBreak line.blank
  | next :: lines =>
    header.joint (line.isSpaced || next.isSpaced) line.lineBreak line.blank ++ next.text ++
      header.textBehind next lines

/-- Reads a block that stands in something with the given indentation. -/
def blockToken (around : Nat) : Reader Token := do
  let header ← readBlockHeader
  let (indent, blank) ← readBlockStart around header.increment
  let lines ← Reader.many (readBlockLine indent)
  readBlockEnd indent
  -- the blank lines at the start belong to an empty line before
  return .scalar true (String.ofList (header.textBehind ⟨[], none, blank⟩ lines))

end Yaml

end ChangelogParameters
