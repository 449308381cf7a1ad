import ChangelogParameters.Yaml.Event

/-!
# YAML documents

The value of a text with at most one document in it: scalars, sequences and mappings, and references
to nodes before, which stand for these nodes with all that they contain.  Keys are taken by their
text, and of several values with one key the last counts.  A text without a document is null, but an
end can be marked only behind a document.
-/

namespace ChangelogParameters

namespace Yaml

/-! ### Nodes -/

/-- A node with all that it contains and refers to. -/
structure Node where
  /-- The text of a scalar, by which it is taken as a key. -/
  text : Option String := none
  /-- The value; there is none if a tag or a key forbids it. -/
  value : Option Value
  /-- How deeply collections are nested in it. -/
  depth : Nat := 0
  /-- How many references are followed to reach all of it. -/
  references : Nat := 0

namespace Node

/-- The node of a scalar. -/
def ofScalar (tag : Option Tag) (quoted : Bool) (text : String) : Node :=
  { text := some text, value := scalarValue? tag quoted text }

/-- A node in the place of a reference to it. -/
def followed (n : Node) : Node := { n with references := n.references + 1 }

/-- The keys and values that come in turn. -/
def pairs? : List Node → Option (List (String × Value))
  | [] => some []
  | [_] => none
  | key :: value :: rest => do return (← key.text, ← value.value) :: (← pairs? rest)

/-- The value of a collection without a tag. -/
def collected? : Kind → List Node → Option Value
  | .sequence, members => (members.mapM value).map .array
  | .mapping, members => (pairs? members).map .ofMembers

/-- The node of a collection.  A tag counts only if it is a local one. -/
def ofMembers (kind : Kind) (tag : Option Tag) (members : List Node) : Node where
  value := if tag.any isLocal then none else collected? kind members
  depth := members.foldl (fun deepest n => max deepest n.depth) 0 + 1
  references := members.foldl (fun count n => count + n.references) 0

end Node

/-! ### Putting together -/

/-- A collection that has not ended. -/
structure Collection where
  /-- The kind. -/
  kind : Kind
  /-- The properties. -/
  properties : Properties
  /-- What it contains so far, last one first. -/
  members : List Node := []

/-- The node of a collection that ends. -/
def Collection.node (c : Collection) : Node :=
  .ofMembers c.kind c.properties.tag c.members.reverse

/-- What some events have put together. -/
structure Composer where
  /-- The nodes with anchors as they begin, last one first; none where a node has not ended. -/
  named : List (String × Option Node) := []
  /-- The collections that have not ended, innermost first. -/
  opened : List Collection := []
  /-- The node that is in no collection. -/
  root : Option Node := none

namespace Composer

/-- Puts a node into the innermost collection. -/
def put (c : Composer) (n : Node) : Composer :=
  match c.opened with
  | [] => { c with root := some n }
  | innermost :: outer =>
    { c with opened := { innermost with members := n :: innermost.members } :: outer }

/-- Gives an anchor to a node. -/
def name (c : Composer) (anchor : Option String) (n : Option Node) : Composer :=
  { c with named := anchor.toList.map (·, n) ++ c.named }

/-- The nodes with anchors once the last one of them that has not ended is complete. -/
def settle (n : Node) : List (String × Option Node) → List (String × Option Node)
  | [] => []
  | (anchor, none) :: named => (anchor, some n) :: named
  | (anchor, some m) :: named => (anchor, some m) :: settle n named

/-- Ends the innermost collection. -/
def finish (c : Composer) : Option Composer :=
  match c.opened with
  | [] => none
  | innermost :: opened =>
    let named := if innermost.properties.anchor.isSome then settle innermost.node c.named
      else c.named
    some ({ c with named, opened }.put innermost.node)

/-- Goes on by one event.  A reference stands for the last node with its name that began before, if
that node has ended. -/
def step (c : Composer) : Event → Option Composer
  | .reference name => do
    let n ← (c.named.lookup name).join
    return c.put n.followed
  | .scalar properties quoted text =>
    let n := Node.ofScalar properties.tag quoted text
    some ((c.name properties.anchor (some n)).put n)
  | .start kind properties =>
    let c := c.name properties.anchor none
    some { c with opened := { kind, properties } :: c.opened }
  | .finish => c.finish

end Composer

/-- How many references may be followed for each event of a document. -/
def referenceBound : Nat := 100

/-- The value that the events of a document stand for. -/
def compose? (events : List Event) : Option Value := do
  let last ← events.foldlM Composer.step {}
  let root ← last.root
  if root.depth ≤ nestingBound && root.references ≤ referenceBound * events.length then root.value
  else none

/-! ### Documents -/

/-- Whether a character may occur in a document. -/
def isAllowed (c : Char) : Bool :=
  let n := c.toNat
  n == 0x9 || n == 0xA || n == 0xD || (0x20 ≤ n && n ≤ 0x7E) || n == 0x85 ||
    (0xA0 ≤ n && n ≤ 0xFFFD) || 0x10000 ≤ n

/-- The text with every line break written as one character. -/
def unifyBreaks : List Char → List Char
  | '\r' :: '\n' :: rest => '\n' :: unifyBreaks rest
  | '\r' :: rest => '\n' :: unifyBreaks rest
  | '\u0085' :: rest => '\n' :: unifyBreaks rest
  | c :: rest => c :: unifyBreaks rest
  | [] => []

/-- The value of the document in a text. -/
def parse? (s : String) : Option Value := do
  if !s.toList.all isAllowed then none
  let tokens ← Layout.tokens? (unifyBreaks s.toList)
  let (events, _) ← readDocument tokens
  compose? events

end Yaml

end ChangelogParameters
