import ChangelogParameters.Yaml.Token

/-!
# Anchors, tags and directives in YAML

A node may have an anchor, by which references name it, and a tag, which names its type.  A tag is
written in full between angle brackets, or with a handle in front that stands for its beginning.
What handles stand for is said by directives before the document.
-/

namespace ChangelogParameters

namespace Yaml

/-- Whether a character may occur in a name: of an anchor, a handle or a directive. -/
def isNameChar (c : Char) : Bool := c.isAlphanum || c == '_' || c == '-'

/-! ### Anchors -/

/-- Whether the name of an anchor ends before these characters. -/
def endsName (cs : List Char) : Bool :=
  startsGap cs ||
    (cs.head?.map ['?', ':', ',', ']', '\x7d', '%', '@', '\x60'].contains).getD false

/-- Reads an anchor or a reference to one. -/
def anchorToken : Reader Token := do
  let mark ← Reader.satisfy fun c => c == '&' || c == '*'
  let name := String.ofList (← Reader.takeWhile1 isNameChar)
  Reader.ahead endsName
  return if mark == '&' then .anchor name else .reference name

/-! ### Tags -/

/-- Whether a character may occur in a tag, apart from escapes.  Some may only where the tag cannot
be taken for something else. -/
def isTagChar (verbatim : Bool) (c : Char) : Bool :=
  isNameChar c || [';', '/', '?', ':', '@', '&', '=', '+', '$', '.', '!', '~', '*', '\'', '(',
    ')'].contains c || (verbatim && [',', '[', ']'].contains c)

/-- How many bytes follow the first byte of a character. -/
def furtherBytes? (first : UInt8) : Option Nat :=
  if first < 0x80 then some 0
  else if 0xC0 ≤ first && first < 0xE0 then some 1
  else if 0xE0 ≤ first && first < 0xF0 then some 2
  else if 0xF0 ≤ first && first < 0xF8 then some 3
  else none

/-- Reads a byte with a property, written with a percent sign and two digits. -/
def readByte (p : UInt8 → Bool) : Reader UInt8 := do
  Reader.char '%'
  let a ← Reader.satisfy (Text.isDigitOf 16)
  let b ← Reader.satisfy (Text.isDigitOf 16)
  let byte := (Text.ofDigits 16 [a, b]).toUInt8
  if p byte then pure byte else Reader.fail

/-- Reads the bytes of an escaped character. -/
def readEscaped : Reader Tag := do
  let first ← readByte fun byte => (furtherBytes? byte).isSome
  let further := List.replicate ((furtherBytes? first).getD 0) 0
  return first :: (← further.mapM fun _ => readByte fun byte => 0x80 ≤ byte && byte < 0xC0)

/-- Reads part of a tag, possibly nothing. -/
def readTagPart (verbatim : Bool) : Reader Tag := do
  let parts ← Reader.many (do
    if (← Reader.look) == some '%' then readEscaped
    else pure [byteOf (← Reader.satisfy (isTagChar verbatim))])
  return parts.flatten

/-- Reads part of a tag that is not empty. -/
def readTagPart1 (verbatim : Bool) : Reader Tag := do
  let part ← readTagPart verbatim
  if part.isEmpty then Reader.fail else pure part

/-- Reads a tag.  A single exclamation mark is a tag of its own, and in front of anything else it is
a handle. -/
def tagToken (inFlow : Bool) : Reader Token := do
  Reader.char '!'
  let tag ← if (← Reader.look) == some '<' then
      Reader.char '<'
      let whole ← readTagPart1 true
      Reader.char '>'
      pure (.tag "" whole)
    else
      let name ← Reader.takeWhile isNameChar
      if (← Reader.look) == some '!' then
        Reader.char '!'
        pure (.tag (String.ofList ('!' :: name ++ ['!'])) (← readTagPart1 false))
      else
        let rest := name.map byteOf ++ (← readTagPart false)
        pure (if rest.isEmpty then .tag "" [byteOf '!'] else .tag "!" rest)
  Reader.ahead fun cs => startsGap cs || (inFlow && cs.head? == some ',')
  return tag

/-! ### Directives -/

/-- Reads a number of at most nine digits. -/
def readShortNumber : Reader Nat := do
  let digits ← Reader.takeWhile1 Char.isDigit
  if digits.length ≤ 9 then pure (Text.ofDigits 10 digits) else Reader.fail

/-- Reads a version of the format. -/
def readVersion : Reader Token := do
  Reader.skipWhile isSpace
  let major ← readShortNumber
  Reader.char '.'
  return .version major (← readShortNumber)

/-- Reads a handle and what it stands for. -/
def readHandle : Reader Token := do
  Reader.skipWhile isSpace
  Reader.char '!'
  let name ← Reader.takeWhile isNameChar
  let closed ← if name.isEmpty then Reader.optional? (Reader.char '!')
    else some <$> Reader.char '!'
  let _ ← Reader.takeWhile1 isSpace
  let stem ← readTagPart1 true
  Reader.ahead startsGap
  return .handle (String.ofList ('!' :: name ++ (closed.map fun _ => '!').toList)) stem

/-- Reads a directive and the rest of its line. -/
def directiveToken : Reader Token := do
  Reader.char '%'
  let name ← Reader.takeWhile1 isNameChar
  Reader.ahead startsGap
  let directive ← if name == "YAML".toList then readVersion
    else if name == "TAG".toList then readHandle
    else Reader.fail
  readLineEnd
  return directive

end Yaml

end ChangelogParameters
