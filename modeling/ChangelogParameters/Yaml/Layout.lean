import ChangelogParameters.Yaml.Block
import ChangelogParameters.Yaml.Property

/-!
# The layout of YAML documents

The tokens of a document, with those that indentation stands for.  A mapping is opened by its
first key, which is known only when the colon behind it is met; so each place where a key could
begin is remembered, and the tokens are put in there when it turns out to be one.  A key stays on
one line and has at most 1024 bytes.
-/

namespace ChangelogParameters

namespace Yaml

/-- A place where a key may have begun. -/
structure PossibleKey where
  /-- Whether there must be a key, because the place is where keys of the mapping begin. -/
  required : Bool
  /-- How many tokens come before it. -/
  token : Nat
  /-- The place. -/
  place : Place
deriving Repr

/-- What has been read of a document and what is left. -/
structure Layout where
  /-- The characters left. -/
  rest : List Char
  /-- The place reached. -/
  place : Place := ⟨0, 0, 0⟩
  /-- The indentation of the innermost collection; less than zero outside of all. -/
  indent : Int := -1
  /-- The indentations around it, innermost first. -/
  outer : List Int := []
  /-- Whether a key can begin here. -/
  keyAllowed : Bool := true
  /-- The possible key of the innermost brackets, or outside of brackets. -/
  possible : Option PossibleKey := none
  /-- Those of the brackets around, innermost first; as many as there are brackets open. -/
  around : List (Option PossibleKey) := []
  /-- The tokens. -/
  tokens : Array Token := #[]
deriving Repr

namespace Layout

/-- Whether brackets are open; indentation means nothing there. -/
def inFlow (l : Layout) : Bool := !l.around.isEmpty

/-- The column of the place reached. -/
def column (l : Layout) : Int := l.place.column

/-- The layout with one more token. -/
def push (l : Layout) (t : Token) : Layout := { l with tokens := l.tokens.push t }

/-- Passes over characters of the current line. -/
def skip (l : Layout) (n : Nat) : Layout :=
  { l with rest := l.rest.drop n, place := l.place.right n }

/-- What a reader makes of the characters left, and the layout behind it. -/
def read {α : Type} (l : Layout) (reader : Reader α) : Option (α × Layout) :=
  (reader l.rest).map fun (a, rest) =>
    let passed := l.rest.take (l.rest.length - rest.length)
    (a, { l with rest, place := passed.foldl Place.behind l.place })

/-! ### Gaps between tokens -/

/-- What is left after space, comments and line breaks, and where.  Tabs are space only where no
key can begin, and a mark of the byte order only at the start of a line; outside of brackets a
line break makes a key possible. -/
def skipGap (inFlow keyAllowed comment : Bool) (p : Place) :
    List Char → List Char × Place × Bool
  | [] => ([], p, keyAllowed)
  | c :: rest =>
    if isBreak c then skipGap inFlow (keyAllowed || !inFlow) false p.nextLine rest
    else if comment || c == ' ' || (c == '\t' && (inFlow || !keyAllowed)) ||
        (c == '\uFEFF' && p.column == 0) then
      skipGap inFlow keyAllowed comment (p.past c) rest
    else if c == '#' then skipGap inFlow keyAllowed true (p.right 1) rest
    else (c :: rest, p, keyAllowed)

/-- The layout at the next token. -/
def toToken (l : Layout) : Layout :=
  let (rest, place, keyAllowed) := skipGap l.inFlow l.keyAllowed false l.place l.rest
  { l with rest, place, keyAllowed }

/-! ### Indentation -/

/-- Closes the collections that are indented further than a column. -/
def closeTo (column indent : Int) : List Int → Array Token → Int × List Int × Array Token
  | [], tokens => (indent, [], tokens)
  | o :: outer, tokens =>
    if column < indent then closeTo column o outer (tokens.push .blockEnd)
    else (indent, o :: outer, tokens)

/-- Closes the collections that end at a column. -/
def unindent (l : Layout) (column : Int) : Layout :=
  if l.inFlow then l
  else
    let (indent, outer, tokens) := closeTo column l.indent l.outer l.tokens
    { l with indent, outer, tokens }

/-- Opens a collection at a column, before the token of the given number, unless one is open
there. -/
def openBlock (l : Layout) (column : Int) (start : Token) (token : Nat) : Layout :=
  if l.inFlow || column ≤ l.indent then l
  else { l with
    indent := column
    outer := l.indent :: l.outer
    tokens := l.tokens.insertIdxIfInBounds token start }

/-! ### Keys -/

/-- Gives up the possible key; fails if it had to be one. -/
def dropKey (l : Layout) : Option Layout :=
  if (l.possible.map (·.required)).getD false then none
  else some { l with possible := none }

/-- Remembers that a key may begin here. -/
def markKey (l : Layout) : Option Layout :=
  if l.keyAllowed then
    l.dropKey.map fun l' => { l' with
      possible := some ⟨!l.inFlow && l.indent == l.column, l.tokens.size, l.place⟩ }
  else some l

/-- Whether a possible key can still be one at a place. -/
def PossibleKey.reaches (k : PossibleKey) (p : Place) : Bool :=
  k.place.line == p.line && p.bytes ≤ k.place.bytes + 1024

/-! ### Marks -/

/-- Reads a mark of a document. -/
def document (l : Layout) (t : Token) : Option Layout :=
  (l.unindent (-1)).dropKey.map fun l => ({ l with keyAllowed := false }.push t).skip 3

/-- Reads a directive. -/
def directive (l : Layout) : Option Layout := do
  let (t, l) ← (← (l.unindent (-1)).dropKey).read directiveToken
  return { l with keyAllowed := false }.push t

/-- Reads an opening bracket or brace. -/
def openFlow (l : Layout) (t : Token) : Option Layout :=
  l.markKey.map fun l =>
    ({ l with around := l.possible :: l.around, possible := none, keyAllowed := true }.push
      t).skip 1

/-- Reads a closing bracket or brace. -/
def closeFlow (l : Layout) (t : Token) : Option Layout :=
  l.dropKey.map fun l =>
    let l := match l.around with
      | [] => l
      | k :: around => { l with possible := k, around := around }
    ({ l with keyAllowed := false }.push t).skip 1

/-- Reads a comma. -/
def comma (l : Layout) : Option Layout :=
  l.dropKey.map fun l => ({ l with keyAllowed := true }.push .flowEntry).skip 1

/-- Reads the hyphen before an entry of a sequence. -/
def hyphen (l : Layout) : Option Layout :=
  if !l.inFlow && !l.keyAllowed then none
  else
    (l.openBlock l.column .sequenceStart l.tokens.size).dropKey.map fun l =>
      ({ l with keyAllowed := true }.push .blockEntry).skip 1

/-- Reads the question mark before a key. -/
def question (l : Layout) : Option Layout :=
  if !l.inFlow && !l.keyAllowed then none
  else
    (l.openBlock l.column .mappingStart l.tokens.size).dropKey.map fun l =>
      ({ l with keyAllowed := !l.inFlow }.push .key).skip 1

/-- Reads the colon before a value, and makes the possible key one. -/
def colon (l : Layout) : Option Layout :=
  match l.possible with
  | some k =>
    if PossibleKey.reaches k l.place then
      let l := { l with
        possible := none
        keyAllowed := false
        tokens := l.tokens.insertIdxIfInBounds k.token .key }
      some (((l.openBlock k.place.column .mappingStart k.token).push .value).skip 1)
    else if k.required then none
    else lone l
  | none => lone l
where
  /-- Reads a colon without a key before it. -/
  lone (l : Layout) : Option Layout :=
    if !l.inFlow && !l.keyAllowed then none
    else
      let l := l.openBlock l.column .mappingStart l.tokens.size
      some (({ l with possible := none, keyAllowed := !l.inFlow }.push .value).skip 1)

/-! ### Nodes -/

/-- Reads what may stand in front of a node, or a reference in its place. -/
def property (l : Layout) (token : Reader Token) : Option Layout := do
  let (t, l) ← (← l.markKey).read token
  return { l with keyAllowed := false }.push t

/-- Reads a scalar that is a block.  It cannot be a key unless that is said before it. -/
def blockScalar (l : Layout) : Option Layout := do
  let (t, l) ← (← l.dropKey).read (blockToken l.indent.toNat)
  return { l with keyAllowed := true }.push t

/-- Reads a scalar between quotes. -/
def quotedScalar (l : Layout) (scan : Place → List Char → Option Scanned) : Option Layout := do
  let l ← l.markKey
  let (text, place, rest) ← scan (l.place.right 1) (l.rest.drop 1)
  return { l with keyAllowed := false, rest, place }.push (.scalar true (String.ofList text))

/-- Reads a scalar without quotes. -/
def plainScalar (l : Layout) : Option Layout := do
  let l ← l.markKey
  let ((text, place, rest), broken) ← plain l.inFlow (l.indent + 1) .none l.place l.rest
  return { l with keyAllowed := broken, rest, place }.push (.scalar false (String.ofList text))

/-- The characters that mean something at the start of a token. -/
def indicators : List Char :=
  ['-', '?', ':', ',', '[', ']', '\x7b', '\x7d', '#', '&', '*', '!', '|', '>', '\'', '"', '%',
    '@', '\x60']

/-- Whether a plain scalar can begin with these characters. -/
def startsPlain (inFlow : Bool) : List Char → Bool
  | [] => false
  | c :: rest =>
    !(isSpace c || indicators.contains c) ||
      (c == '-' && !(rest.head?.map isSpace).getD false) ||
      (!inFlow && (c == '?' || c == ':') && !startsGap rest)

/-! ### Tokens -/

/-- Reads the next token. -/
def next (l : Layout) : Option Layout :=
  let l := l.unindent l.column
  match l.rest with
  | [] => none
  | c :: rest =>
    if startsDocumentMark l.place l.rest then
      l.document (if c == '-' then .documentStart else .documentEnd)
    else if c == '%' && l.place.column == 0 then l.directive
    else if c == '[' then l.openFlow .flowSequenceStart
    else if c == '\x7b' then l.openFlow .flowMappingStart
    else if c == ']' then l.closeFlow .flowSequenceEnd
    else if c == '\x7d' then l.closeFlow .flowMappingEnd
    else if c == ',' then l.comma
    else if c == '-' && startsGap rest then l.hyphen
    else if c == '?' && (l.inFlow || startsGap rest) then l.question
    else if c == ':' && (l.inFlow || startsGap rest) then l.colon
    else if c == '*' || c == '&' then l.property anchorToken
    else if c == '!' then l.property (tagToken l.inFlow)
    else if (c == '|' || c == '>') && !l.inFlow then l.blockScalar
    else if c == '\'' then l.quotedScalar (singleQuoted .none)
    else if c == '"' then l.quotedScalar (doubleQuoted .none)
    else if startsPlain l.inFlow l.rest then l.plainScalar
    else none

/-- The layout behind the last token, if at most as many tokens are left as the bound says. -/
def finish : (bound : Nat) → Layout → Option Layout
  | 0, _ => none
  | bound + 1, l =>
    let here := l.toToken
    if here.rest.isEmpty then (here.unindent (-1)).dropKey
    else here.next.bind (finish bound)

/-- The tokens of a text.  Each takes at least one character. -/
def tokens? (cs : List Char) : Option (List Token) :=
  (finish (cs.length + 1) { rest := cs }).map fun last => last.tokens.toList

end Layout

end Yaml

end ChangelogParameters
