import ChangelogParameters.Text.Escape
import ChangelogParameters.Text.Reader

/-!
# Quoted text in TOML

A quoted text stands between double quotes, where a backslash begins an escape, or between
single quotes, where every character stands for itself.  Three quotes at each end allow the text
to go over several lines; a line break directly after the opening quotes does not count.
-/

namespace ChangelogParameters

namespace Toml

/-! ### Characters -/

/-- Whether a character may separate things on a line. -/
def isSpace (c : Char) : Bool := c == ' ' || c == '\t'

/-- Whether a character may stand in a text or a comment as it is: any but the control
characters other than the tab. -/
def isPlain (c : Char) : Bool :=
  c == '\t' || (0x20 ≤ c.toNat && c.toNat ≠ 0x7F)

/-- The character of an escape with one letter. -/
def unescape? : Char → Option Char
  | 'b' => some '\x08'
  | 't' => some '\t'
  | 'n' => some '\n'
  | 'f' => some '\x0c'
  | 'r' => some '\r'
  | '"' => some '"'
  | '\\' => some '\\'
  | _ => none

/-! ### On one line -/

/-- The characters up to the closing double quote, and what comes after it. -/
def basicBody : List Char → Option (List Char × List Char)
  | [] => none
  | '"' :: rest => some ([], rest)
  | '\\' :: 'u' :: a :: b :: c :: d :: rest =>
    Text.prepend (Text.codePoint? [a, b, c, d]) (basicBody rest)
  | '\\' :: 'U' :: a :: b :: c :: d :: e :: f :: g :: h :: rest =>
    Text.prepend (Text.codePoint? [a, b, c, d, e, f, g, h]) (basicBody rest)
  | '\\' :: c :: rest => Text.prepend (unescape? c) (basicBody rest)
  | c :: rest => if isPlain c then Text.prepend (some c) (basicBody rest) else none

/-- The characters up to the closing single quote, and what comes after it. -/
def literalBody : List Char → Option (List Char × List Char)
  | [] => none
  | '\'' :: rest => some ([], rest)
  | c :: rest => if isPlain c then Text.prepend (some c) (literalBody rest) else none

/-! ### On several lines -/

/-- The text without a line break at its start. -/
def dropLineBreak : List Char → List Char
  | '\n' :: rest => rest
  | '\r' :: '\n' :: rest => rest
  | cs => cs

/-- Whether only spaces are left on the line. -/
def endsLine (cs : List Char) : Bool :=
  match cs.dropWhile isSpace with
  | '\n' :: _ => true
  | '\r' :: '\n' :: _ => true
  | _ => false

/-- The characters up to three closing double quotes, and what comes after them; up to two more
quotes belong to the text.  A backslash at the end of a line removes the line break with all
space around it, which is what `joining` says. -/
def multilineBasicBody : (joining : Bool) → List Char → Option (List Char × List Char)
  | _, [] => none
  | _, '"' :: '"' :: '"' :: '"' :: '"' :: rest => some (['"', '"'], rest)
  | _, '"' :: '"' :: '"' :: '"' :: rest => some (['"'], rest)
  | _, '"' :: '"' :: '"' :: rest => some ([], rest)
  | joining, '\r' :: '\n' :: rest =>
    if joining then multilineBasicBody true rest
    else Text.prepend (some '\n') (multilineBasicBody false rest)
  | _, '\\' :: 'u' :: a :: b :: c :: d :: rest =>
    Text.prepend (Text.codePoint? [a, b, c, d]) (multilineBasicBody false rest)
  | _, '\\' :: 'U' :: a :: b :: c :: d :: e :: f :: g :: h :: rest =>
    Text.prepend (Text.codePoint? [a, b, c, d, e, f, g, h]) (multilineBasicBody false rest)
  | _, '\\' :: c :: rest =>
    if endsLine (c :: rest) then multilineBasicBody true (c :: rest)
    else Text.prepend (unescape? c) (multilineBasicBody false rest)
  | joining, c :: rest =>
    if joining && (isSpace c || c == '\n') then multilineBasicBody true rest
    else if isPlain c || c == '\n' then
      Text.prepend (some c) (multilineBasicBody false rest)
    else none

/-- The characters up to three closing single quotes, and what comes after them; up to two more
quotes belong to the text. -/
def multilineLiteralBody : List Char → Option (List Char × List Char)
  | [] => none
  | '\'' :: '\'' :: '\'' :: '\'' :: '\'' :: rest => some (['\'', '\''], rest)
  | '\'' :: '\'' :: '\'' :: '\'' :: rest => some (['\''], rest)
  | '\'' :: '\'' :: '\'' :: rest => some ([], rest)
  | '\r' :: '\n' :: rest => Text.prepend (some '\n') (multilineLiteralBody rest)
  | c :: rest =>
    if isPlain c || c == '\n' then Text.prepend (some c) (multilineLiteralBody rest) else none

/-! ### Quoted text -/

/-- Reads a quoted text that stays on its line. -/
def readLineText : Reader String
  | '"' :: rest => (basicBody rest).map fun (cs, rest) => (String.ofList cs, rest)
  | '\'' :: rest => (literalBody rest).map fun (cs, rest) => (String.ofList cs, rest)
  | _ => none

/-- Reads a quoted text. -/
def readText : Reader String
  | '"' :: '"' :: '"' :: rest =>
    (multilineBasicBody false (dropLineBreak rest)).map fun (cs, rest) =>
      (String.ofList cs, rest)
  | '\'' :: '\'' :: '\'' :: rest =>
    (multilineLiteralBody (dropLineBreak rest)).map fun (cs, rest) => (String.ofList cs, rest)
  | cs => readLineText cs

end Toml

end ChangelogParameters
