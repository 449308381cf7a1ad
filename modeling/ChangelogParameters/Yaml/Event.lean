import ChangelogParameters.Text.Reader
import ChangelogParameters.Yaml.Layout
import ChangelogParameters.Yaml.Scalar

/-!
# Events in YAML

The tokens of a text with at most one document in it are read as a list of events: scalars,
references, and where sequences and mappings begin and end.  Keys and values of a mapping come in
turn; what is not written is an empty scalar.  A key is a scalar or a reference.
-/

namespace ChangelogParameters

namespace Yaml

/-- What a node may have besides its content. -/
structure Properties where
  /-- The name by which references name it. -/
  anchor : Option String := none
  /-- The tag. -/
  tag : Option Tag := none
deriving DecidableEq, Repr

/-- The kinds of collections. -/
inductive Kind where
  | sequence
  | mapping
deriving DecidableEq, Repr

/-- A node that is no collection, or the begin or the end of a collection. -/
inductive Event where
  /-- A reference to a node before. -/
  | reference (name : String)
  /-- A scalar, as its token says. -/
  | scalar (properties : Properties) (quoted : Bool) (text : String)
  /-- A collection begins. -/
  | start (kind : Kind) (properties : Properties)
  /-- The innermost collection ends. -/
  | finish
deriving DecidableEq, Repr

namespace Event

/-- The scalar that is not written. -/
def absent : Event := scalar {} false ""

/-- A collection of what its parts say. -/
def collection (kind : Kind) (properties : Properties) (parts : List (List Event)) : List Event :=
  start kind properties :: parts.flatten ++ [finish]

end Event

/-- A function that reads a prefix of a sequence of tokens. -/
abbrev TokenReader := ListReader Token

/-! ### Tokens -/

/-- Reads one given token. -/
def expect (t : Token) : TokenReader Unit := do
  let _ ← Reader.satisfy (· == t)

/-- Reads a token if it comes next, and tells whether it did. -/
def accept (t : Token) : TokenReader Bool := do
  if (← Reader.look) == some t then
    expect t
    pure true
  else pure false

/-- Whether one of several tokens comes next. -/
def nextIsOneOf (ts : List Token) : TokenReader Bool := do
  match ← Reader.look with
  | some t => pure (ts.contains t)
  | none => pure false

/-- Reads any token. -/
def anyToken : TokenReader Token := Reader.satisfy fun _ => true

/-! ### Properties -/

/-- What the handles of tags stand for. -/
abbrev Handles := List (String × Tag)

/-- The handles that are known without a directive. -/
def Handles.known : Handles := [("!", [byteOf '!']), ("!!", coreTag "")]

/-- Reads an anchor if it comes next. -/
def readAnchor? : TokenReader (Option String) := do
  match ← Reader.look with
  | some (.anchor name) =>
    let _ ← anyToken
    pure (some name)
  | _ => pure none

/-- Reads a tag if it comes next; its handle has to be known. -/
def readTag? (handles : Handles) : TokenReader (Option Tag) := do
  match ← Reader.look with
  | some (.tag handle rest) =>
    let _ ← anyToken
    if handle.isEmpty then pure (some rest)
    else match handles.lookup handle with
      | some stem => pure (some (stem ++ rest))
      | none => Reader.fail
  | _ => pure none

/-- Reads the properties of a node, in either order. -/
def readProperties (handles : Handles) : TokenReader Properties := do
  let before ← readAnchor?
  let tag ← readTag? handles
  let behind ← if before.isNone then readAnchor? else pure none
  return ⟨before <|> behind, tag⟩

/-! ### Nodes without collections -/

/-- Reads a node that is no collection, behind its properties.  A reference has none.  Properties
without anything behind are those of an empty scalar. -/
def readLeaf (properties : Properties) : TokenReader Event := do
  match ← Reader.look with
  | some (.scalar quoted text) =>
    let _ ← anyToken
    -- a single exclamation mark says that there is no tag
    let tag := properties.tag.filter (· != [byteOf '!'])
    pure (.scalar { properties with tag } quoted text)
  | some (.reference name) =>
    if properties = {} then
      let _ ← anyToken
      pure (.reference name)
    else pure (.scalar properties false "")
  | _ => if properties = {} then Reader.fail else pure (.scalar properties false "")

/-- Reads the key of a mapping. -/
def readKey (handles : Handles) : TokenReader Event := do
  readLeaf (← readProperties handles)

/-- Reads what is absent before the given tokens. -/
def readUnless {α : Type} (absentBefore : List Token) (absent : α) (node : TokenReader α) :
    TokenReader α := do
  if ← nextIsOneOf absentBefore then pure absent else node

/-- Reads a value behind its colon; without a colon it is absent. -/
def readAfterColon (absentBefore : List Token) (node : TokenReader (List Event)) :
    TokenReader (List Event) := do
  if ← accept .value then readUnless absentBefore [.absent] node else pure [.absent]

/-! ### Parts of collections -/

section

variable (handles : Handles) (inner node : TokenReader (List Event))

/-- Reads an entry of a sequence in a block. -/
def readEntry (absentBefore : List Token) : TokenReader (List Event) := do
  expect .blockEntry
  readUnless absentBefore [.absent] node

/-- Reads a key and a value of a mapping in a block. -/
def readPair : TokenReader (List Event) := do
  let absentBefore := [.key, .value, .blockEnd]
  expect .key
  let key ← readUnless absentBefore .absent (readKey handles)
  return key :: (← readAfterColon absentBefore node)

/-- Reads items in flow style, with commas between them; a comma may follow the last one. -/
def readFlow (item : TokenReader (List Event)) (close : Token) :
    TokenReader (List (List Event)) := do
  let items ← Reader.many (do
    let events ← item
    return (events, ← accept .flowEntry))
  expect close
  if items.dropLast.all (·.2) then pure (items.map (·.1)) else Reader.fail

/-- Reads a key and a value of a mapping in flow style. -/
def readFlowPair : TokenReader (List Event) := do
  if ← accept .key then
    let key ← readUnless [.value, .flowEntry, .flowMappingEnd] .absent (readKey handles)
    return key :: (← readAfterColon [.flowEntry, .flowMappingEnd] node)
  else return [← readKey handles, .absent]

/-- Reads the key of a mapping that is an item of a sequence.  Where there is none, the token in
its place is passed over instead. -/
def readItemKey : TokenReader Event := do
  if ← nextIsOneOf [.value, .flowEntry, .flowSequenceEnd] then
    let _ ← anyToken
    pure .absent
  else readKey handles

/-- Reads an item of a sequence in flow style; a key makes it a mapping of one pair. -/
def readFlowItem : TokenReader (List Event) := do
  if ← accept .key then
    let key ← readItemKey handles
    let value ← readAfterColon [.flowEntry, .flowSequenceEnd] inner
    return Event.collection .mapping {} [key :: value]
  else node

end

/-! ### Nodes -/

/-- Where a node stands: an entry of a sequence, the value of a mapping, or inside brackets.  A
sequence may stand under a key without being indented further. -/
inductive Setting where
  | entry
  | underKey
  | inFlow
deriving DecidableEq, Repr

/-- Reads a node in which collections are nested at most as deeply as the bound. -/
def readNode (handles : Handles) : (bound : Nat) → Setting → TokenReader (List Event)
  | 0, _ => do
    return [← readKey handles]
  | bound + 1, setting => do
    let properties ← readProperties handles
    let entry := readNode handles bound .entry
    match ← Reader.look, setting with
    | some .blockEntry, .underKey =>
      let items ← Reader.many (readEntry entry [.blockEntry, .key, .value, .blockEnd])
      return Event.collection .sequence properties items
    | some .sequenceStart, .entry | some .sequenceStart, .underKey =>
      expect .sequenceStart
      let items ← Reader.many (readEntry entry [.blockEntry, .blockEnd])
      expect .blockEnd
      return Event.collection .sequence properties items
    | some .mappingStart, .entry | some .mappingStart, .underKey =>
      expect .mappingStart
      let pairs ← Reader.many (readPair handles (readNode handles bound .underKey))
      expect .blockEnd
      return Event.collection .mapping properties pairs
    | some .flowSequenceStart, _ =>
      expect .flowSequenceStart
      let inner := match bound with
        | 0 => Reader.fail
        | bound + 1 => readNode handles bound .inFlow
      let item := readFlowItem handles inner (readNode handles bound .inFlow)
      return Event.collection .sequence properties (← readFlow item .flowSequenceEnd)
    | some .flowMappingStart, _ =>
      expect .flowMappingStart
      let pair := readFlowPair handles (readNode handles bound .inFlow)
      return Event.collection .mapping properties (← readFlow pair .flowMappingEnd)
    | _, _ => return [← readLeaf properties]

/-- How deeply collections may be nested. -/
def nestingBound : Nat := 128

/-! ### Documents -/

/-- Whether a token is a directive. -/
def Token.isDirective : Token → Bool
  | version _ _ | handle _ _ => true
  | _ => false

/-- The version that a directive gives. -/
def Token.version? : Token → Option (Nat × Nat)
  | version major minor => some (major, minor)
  | _ => none

/-- The handle that a directive gives. -/
def Token.handle? : Token → Option (String × Tag)
  | handle name stem => some (name, stem)
  | _ => none

/-- Reads what comes before a document, and tells what its handles stand for and whether its start
is marked, as it has to be behind directives.  There is at most one version, of two that are known,
and a handle is given at most once. -/
def readStart : TokenReader (Handles × Bool) := do
  let directives ← Reader.many (Reader.satisfy Token.isDirective)
  let versions := directives.filterMap Token.version?
  let handles := directives.filterMap Token.handle?
  let marked ← accept .documentStart
  if versions.length ≤ 1 && versions.all [(1, 1), (1, 2)].contains &&
      (handles.map (·.1)).Nodup && (directives.isEmpty || marked) then
    pure (handles ++ Handles.known, marked)
  else Reader.fail

/-- Reads a text's only document.  One whose start is marked may be empty before its end. -/
def readDocument : TokenReader (List Event) := do
  let (handles, marked) ← readStart
  let absentBefore := if marked then [.documentStart, .documentEnd] else []
  let events ← match ← Reader.look with
    | none => pure [.absent]
    | some _ => readUnless absentBefore [.absent] (readNode handles nestingBound .entry)
  let _ ← Reader.many (expect .documentEnd)
  Reader.atEnd
  return events

end Yaml

end ChangelogParameters
