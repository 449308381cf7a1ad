import ChangelogParameters.Text.Blank
import ChangelogParameters.Text.Lowercase

/-!
# Tokens of tag expressions

The text of a tag expression is a sequence of tokens: parentheses, commas, the operators and
words.  A word is a longest run of characters that are neither blank nor delimiters; its lower
case decides whether it is an operator or a tag name.
-/

namespace ChangelogParameters

/-- A token of a tag expression. -/
inductive Token where
  | leftParen
  | rightParen
  | comma
  | not
  | and
  | or
  | word (name : String)
deriving DecidableEq, Repr

namespace Token

/-- The text by which messages name a token; an exclamation mark goes by the name of its
operator. -/
def text : Token → String
  | leftParen => "("
  | rightParen => ")"
  | comma => ","
  | not => "not"
  | and => "and"
  | or => "or"
  | word name => name

/-! ### Characters -/

/-- The token of a character that is one by itself. -/
def ofDelimiter? : Char → Option Token
  | '(' => some leftParen
  | ')' => some rightParen
  | ',' => some comma
  | '!' => some not
  | _ => none

/-- Whether a character can be part of a word. -/
def isWordChar (c : Char) : Bool :=
  !Text.isBlank c && (ofDelimiter? c).isNone

/-! ### Words -/

/-- The token of a word: an operator in any case, or else the lower-cased tag name. -/
def ofWord (word : List Char) : Token :=
  match String.ofList (Text.lowerChars word) with
  | "and" => and
  | "or" => or
  | "not" => not
  | name => .word name

/-- The tokens of a pending word, given in reverse: none if it has no characters yet. -/
def ofPending : List Char → List Token
  | [] => []
  | pending => [ofWord pending.reverse]

/-- The tokens of a text that follows the characters of a pending word, given in reverse. -/
def scanFrom (pending : List Char) : List Char → List Token
  | [] => ofPending pending
  | c :: cs =>
    if isWordChar c then scanFrom (c :: pending) cs
    else ofPending pending ++ (ofDelimiter? c).toList ++ scanFrom [] cs

/-- The tokens of a text. -/
def scan (s : String) : List Token :=
  scanFrom [] s.toList

end Token

end ChangelogParameters
