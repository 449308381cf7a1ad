import ChangelogParameters.Text.Escape
import ChangelogParameters.Text.Reader

/-!
# Tokens and scalars in YAML

A document is read as a sequence of tokens.  Besides the marks that are written there are tokens
for where indentation opens and closes a collection.  The text of a scalar may go over several
lines: a single line break counts as a space, further ones as themselves, and the space around
them does not count.
-/

namespace ChangelogParameters

namespace Yaml

/-- A tag, which names the type of a node, by its bytes in UTF-8. -/
abbrev Tag := List UInt8

/-- The byte of a character that has only one. -/
def byteOf (c : Char) : UInt8 := c.toNat.toUInt8

/-- A token of a document. -/
inductive Token where
  /-- The version of the format, in a directive. -/
  | version (major minor : Nat)
  /-- A handle and what tags with it begin with, in a directive. -/
  | handle (name : String) (stem : Tag)
  /-- Three hyphens before a document. -/
  | documentStart
  /-- Three points behind a document. -/
  | documentEnd
  /-- Entries of a sequence begin at this indentation. -/
  | sequenceStart
  /-- Keys of a mapping begin at this indentation. -/
  | mappingStart
  /-- The indentation of a collection ends. -/
  | blockEnd
  /-- An opening bracket. -/
  | flowSequenceStart
  /-- A closing bracket. -/
  | flowSequenceEnd
  /-- An opening brace. -/
  | flowMappingStart
  /-- A closing brace. -/
  | flowMappingEnd
  /-- A hyphen before an entry. -/
  | blockEntry
  /-- A comma. -/
  | flowEntry
  /-- A key follows. -/
  | key
  /-- A colon; a value follows. -/
  | value
  /-- An ampersand and the name of the node that follows. -/
  | anchor (name : String)
  /-- An asterisk and the name of a node before. -/
  | reference (name : String)
  /-- A tag: its handle, which may be missing, and what comes behind. -/
  | tag (handle : String) (rest : Tag)
  /-- A scalar.  It counts as quoted if it stands between quotes or is a block. -/
  | scalar (quoted : Bool) (text : String)
deriving DecidableEq, Repr

/-! ### Places and characters -/

/-- A place in a text. -/
structure Place where
  /-- The number of the line, from zero. -/
  line : Nat
  /-- The number of characters before it on its line. -/
  column : Nat
  /-- The number of bytes before it on its line, in UTF-8. -/
  bytes : Nat
deriving DecidableEq, Repr

namespace Place

/-- The place some characters of one byte further on the same line. -/
def right (p : Place) (n : Nat) : Place := ⟨p.line, p.column + n, p.bytes + n⟩

/-- The place behind a character of the same line. -/
def past (p : Place) (c : Char) : Place := ⟨p.line, p.column + 1, p.bytes + c.utf8Size⟩

/-- The place behind a line break. -/
def nextLine (p : Place) : Place := ⟨p.line + 1, 0, 0⟩

end Place

/-- Whether a character is a space or a tab. -/
def isSpace (c : Char) : Bool := c == ' ' || c == '\t'

/-- Whether a character ends a line. -/
def isBreak (c : Char) : Bool := c == '\n' || c == '\u2028' || c == '\u2029'

/-- Whether a text begins with a space or a line break, or is at its end. -/
def startsGap : List Char → Bool
  | [] => true
  | c :: _ => isSpace c || isBreak c

/-- Whether a text begins with three of a character and a gap. -/
def startsMark (c : Char) : List Char → Bool
  | a :: b :: d :: rest => a == c && b == c && d == c && startsGap rest
  | _ => false

/-- Whether a document begins or ends at the start of a line. -/
def startsDocumentMark (p : Place) (cs : List Char) : Bool :=
  p.column == 0 && (startsMark '-' cs || startsMark '.' cs)

/-- The place behind a character. -/
def Place.behind (p : Place) (c : Char) : Place :=
  if isBreak c then p.nextLine else p.past c

/-- Reads what is left of a line on which nothing but a comment may follow. -/
def readLineEnd : Reader Unit := do
  Reader.skipWhile isSpace
  if (← Reader.look) == some '#' then Reader.skipWhile fun c => !isBreak c
  match ← Reader.look with
  | none => pure ()
  | some _ => let _ ← Reader.satisfy isBreak

/-! ### Gaps inside scalars -/

/-- What has been passed over since the last character of a scalar. -/
inductive Gap where
  /-- Spaces on one line, last one first. -/
  | spaces (cs : List Char)
  /-- A line break that counts unless it was escaped, and further ones, last one first. -/
  | breaks (first : Option Char) (further : List Char)
deriving Repr

namespace Gap

/-- Nothing passed over. -/
def none : Gap := spaces []

/-- Whether nothing was passed over. -/
def isNone : Gap → Bool
  | spaces [] => true
  | _ => false

/-- Whether a line break was passed over. -/
def isBreaks : Gap → Bool
  | breaks _ _ => true
  | _ => false

/-- The gap with one more space or line break. -/
def add (c : Char) : Gap → Gap
  | spaces cs => if isBreak c then breaks (some c) [] else spaces (c :: cs)
  | breaks first further => breaks first (if isBreak c then c :: further else further)

/-- What a gap inside a scalar stands for. -/
def text : Gap → List Char
  | spaces cs => cs.reverse
  | breaks (some '\n') [] => [' ']
  | breaks (some '\n') further => further.reverse
  | breaks first further => first.toList ++ further.reverse

end Gap

/-! ### Quoted scalars -/

/-- A scalar's characters, where it ends and what comes after it. -/
abbrev Scanned := List Char × Place × List Char

/-- Puts characters in front of those of a scalar. -/
def emit (cs : List Char) (scanned : Option Scanned) : Option Scanned :=
  scanned.map fun (text, p, rest) => (cs ++ text, p, rest)

/-- The rest of a scalar between single quotes; two of them stand for one. -/
def singleQuoted (gap : Gap) (p : Place) : List Char → Option Scanned
  | [] => none
  | '\'' :: '\'' :: rest => emit (gap.text ++ ['\'']) (singleQuoted .none (p.right 2) rest)
  | '\'' :: rest => some (gap.text, p.right 1, rest)
  | c :: rest =>
    if isSpace c || isBreak c then singleQuoted (gap.add c) (p.behind c) rest
    else if startsDocumentMark p (c :: rest) then none
    else emit (gap.text ++ [c]) (singleQuoted .none (p.past c) rest)

/-- The character of an escape with one letter. -/
def unescape? : Char → Option Char
  | '0' => some '\x00'
  | 'a' => some '\x07'
  | 'b' => some '\x08'
  | 't' => some '\t'
  | '\t' => some '\t'
  | 'n' => some '\n'
  | 'v' => some '\x0b'
  | 'f' => some '\x0c'
  | 'r' => some '\r'
  | 'e' => some '\x1b'
  | ' ' => some ' '
  | '"' => some '"'
  | '/' => some '/'
  | '\\' => some '\\'
  | 'N' => some '\u0085'
  | '_' => some '\u00a0'
  | 'L' => some '\u2028'
  | 'P' => some '\u2029'
  | _ => none

/-- Puts the gap and an escaped character in front of the rest of a scalar. -/
def emitEscaped (gap : Gap) (c : Option Char) (scanned : Option Scanned) : Option Scanned :=
  match c with
  | some c => emit (gap.text ++ [c]) scanned
  | none => none

/-- The rest of a scalar between double quotes; a backslash begins an escape. -/
def doubleQuoted (gap : Gap) (p : Place) : List Char → Option Scanned
  | [] => none
  | '"' :: rest => some (gap.text, p.right 1, rest)
  | '\\' :: 'x' :: a :: b :: rest =>
    emitEscaped gap (Text.codePoint? [a, b]) (doubleQuoted .none (p.right 4) rest)
  | '\\' :: 'u' :: a :: b :: c :: d :: rest =>
    emitEscaped gap (Text.codePoint? [a, b, c, d]) (doubleQuoted .none (p.right 6) rest)
  | '\\' :: 'U' :: a :: b :: c :: d :: e :: f :: g :: h :: rest =>
    emitEscaped gap (Text.codePoint? [a, b, c, d, e, f, g, h])
      (doubleQuoted .none (p.right 10) rest)
  | '\\' :: c :: rest =>
    if isBreak c then emit gap.text (doubleQuoted (.breaks none []) p.nextLine rest)
    else emitEscaped gap (unescape? c) (doubleQuoted .none (p.right 2) rest)
  | c :: rest =>
    if isSpace c || isBreak c then doubleQuoted (gap.add c) (p.behind c) rest
    else if startsDocumentMark p (c :: rest) then none
    else emit (gap.text ++ [c]) (doubleQuoted .none (p.past c) rest)

/-! ### Plain scalars -/

/-- Whether a character is a bracket, a brace or a comma. -/
def isFlowMark (c : Char) : Bool :=
  c == ',' || c == '[' || c == ']' || c == '\x7b' || c == '\x7d'

/-- A colon inside brackets that is neither part of a scalar nor behind one. -/
def isStrayColon : List Char → Bool
  | ':' :: c :: _ => isFlowMark c || c == '?'
  | _ => false

/-- Whether a plain scalar ends before these characters, wherever they stand on a line. -/
def endsPlain (inFlow : Bool) : List Char → Bool
  | [] => true
  | c :: rest => (c == ':' && startsGap rest) || (inFlow && isFlowMark c)

/-- Whether a plain scalar ends behind a gap: at a comment, a document mark or where the
indentation is too small. -/
def endsBehindGap (inFlow : Bool) (indent : Int) (p : Place) (cs : List Char) : Bool :=
  cs.head? == some '#' || startsDocumentMark p cs || (!inFlow && (p.column : Int) < indent)

/-- The rest of a scalar without quotes, and whether a line break follows it. -/
def plain (inFlow : Bool) (indent : Int) (gap : Gap) (p : Place) :
    List Char → Option (Scanned × Bool)
  | [] => some (([], p, []), gap.isBreaks)
  | c :: rest =>
    if isSpace c || isBreak c then
      if c == '\t' && gap.isBreaks && (p.column : Int) < indent then none
      else plain inFlow indent (gap.add c) (p.behind c) rest
    else if !gap.isNone && endsBehindGap inFlow indent p (c :: rest) then
      some (([], p, c :: rest), gap.isBreaks)
    else if inFlow && isStrayColon (c :: rest) then none
    else if endsPlain inFlow (c :: rest) then some (([], p, c :: rest), gap.isBreaks)
    else (plain inFlow indent .none (p.past c) rest).map fun ((cs, q, after), broken) =>
      ((gap.text ++ c :: cs, q, after), broken)

end Yaml

end ChangelogParameters
