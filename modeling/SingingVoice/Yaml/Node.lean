import SingingVoice.Yaml.Token

/-!
# Documents

A document is a tree of nodes: scalars, lists and maps, each with an optional tag, and references to
other nodes. A node that is referred to has a place, and its name tells the place. When a name is
given, its place is the number of the different names before, so a name that is given again moves to
the place of the next new name. A place belongs to the last node that begins with it.
`Document.ofText?` reads a text that holds at most one document.
-/

namespace SingingVoice.Yaml

/-- A part of a document. -/
inductive Node where
  /-- A scalar with its text. -/
  | scalar (tag : Option Tag) (style : ScalarStyle) (text : String)
  /-- A list of nodes. -/
  | list (tag : Option Tag) (items : List Node)
  /-- A map, whose keys are nodes as well. -/
  | map (tag : Option Tag) (entries : List (Node × Node))
  /-- A reference to the node with a place. -/
  | reference (place : Nat)
deriving Inhabited

namespace Node

/-- The scalar that stands where there is nothing. -/
def nothing : Node :=
  .scalar none .plain ""

/-- The tokens that are left to be read, and what the earlier ones have introduced. -/
structure Source where
  /-- The tokens. -/
  tokens : List Token
  /-- The names with their places, the latest first. -/
  places : List (String × Nat)
  /-- The nodes with places, in the order in which they begin. -/
  targets : Array (Nat × Node)
  /-- The short forms for the fronts of tags. -/
  handles : List (String × Tag)

namespace Source

/-- Gives a name to the node that begins here. -/
def beginNode (source : Source) (name : String) : Source :=
  let place := source.places.length
  { source with
    places := (name, place) :: source.places.filter fun (other, _) => other ≠ name
    targets := source.targets.push (place, nothing) }

/-- Keeps the node that has begun as the one with a number. -/
def endNode (source : Source) (number : Nat) (node : Node) : Source :=
  { source with targets := source.targets.modify number fun (place, _) => (place, node) }

end Source

/-- A reader of nodes. -/
abbrev Reader :=
  StateT Source Option

namespace Reader

/-- Refuses the document. -/
def refuse {β : Type} : Reader β :=
  fun _ => none

/-- The next token. -/
def peek : Reader Token :=
  fun source => some (source.tokens.head?.getD .endOfText, source)

/-- Passes over a token. -/
def skip : Reader Unit :=
  fun source => some ((), { source with tokens := source.tokens.tail })

/-- Passes over a token if it is the given one, and tells whether it was. -/
def skipIf (token : Token) : Reader Bool := do
  if (← peek) = token then
    skip
    return true
  return false

/-- The full form of a tag. -/
def tagOf (handle : String) (suffix : Tag) : Reader Tag := do
  if handle.isEmpty then return suffix
  match (← get).handles.lookup handle with
  | some expansion => return expansion.append suffix
  | none => refuse

/-- Reads the anchor and the tag of a node, which come in any order. -/
def properties : Nat → Option String → Option Tag → Reader (Option String × Option Tag)
  | 0, anchor, tag => return (anchor, tag)
  | fuel + 1, anchor, tag => do
    match ← peek, anchor, tag with
    | .anchor name, none, tag =>
      skip
      properties fuel (some name) tag
    | .tag handle suffix, anchor, none =>
      skip
      properties fuel anchor (some (← tagOf handle suffix))
    | _, anchor, tag => return (anchor, tag)

/-- Reads a node that may have a name. -/
def named (anchor : Option String) (reader : Reader Node) : Reader Node := do
  match anchor with
  | none => reader
  | some name =>
    let number := (← get).targets.size
    modify fun source => source.beginNode name
    let node ← reader
    modify fun source => source.endNode number node
    return node

/-- The reference to a name. -/
def reference (name : String) : Reader Node := do
  match (← get).places.lookup name with
  | some place => return .reference place
  | none => refuse

mutual

/-- Reads a node. The flags say whether it may be told by indentation, and whether it may be a list
that is not indented further than the map it is in. -/
def node : Nat → Bool → Bool → Reader Node
  | 0, _, _ => refuse
  | fuel + 1, inBlock, unindented => do
    if let .reference name ← peek then
      skip
      return ← reference name
    let (anchor, tag) ← properties 2 none none
    named anchor (content fuel inBlock unindented (anchor.isSome || tag.isSome) tag)

/-- Reads a node behind its anchor and its tag. -/
def content : Nat → Bool → Bool → Bool → Option Tag → Reader Node
  | 0, _, _, _, _ => refuse
  | fuel + 1, inBlock, unindented, hasProperties, tag => do
    match ← peek with
    | .blockEntry =>
      if unindented then return .list tag (← unindentedItems fuel)
      else if hasProperties then return .scalar tag .plain "" else refuse
    | .scalar style text =>
      skip
      return .scalar tag style text
    | .flowListStart =>
      skip
      return .list tag (← flowItems fuel true)
    | .flowMapStart =>
      skip
      return .map tag (← flowEntries fuel true)
    | .blockListStart =>
      if inBlock then
        skip
        return .list tag (← blockItems fuel)
      else if hasProperties then return .scalar tag .plain "" else refuse
    | .blockMapStart =>
      if inBlock then
        skip
        return .map tag (← blockEntries fuel)
      else if hasProperties then return .scalar tag .plain "" else refuse
    | _ => if hasProperties then return .scalar tag .plain "" else refuse

/-- Reads a node, or nothing if one of the given tokens comes next. -/
def nodeUnless : Nat → Bool → Bool → List Token → Reader Node
  | 0, _, _, _ => refuse
  | fuel + 1, inBlock, unindented, ends => do
    if ends.contains (← peek) then return nothing
    node fuel inBlock unindented

/-- Reads the items of a list that is told by indentation. -/
def blockItems : Nat → Reader (List Node)
  | 0 => refuse
  | fuel + 1 => do
    if ← skipIf .blockEnd then return []
    if !(← skipIf .blockEntry) then refuse
    let item ← nodeUnless fuel true false [.blockEntry, .blockEnd]
    return item :: (← blockItems fuel)

/-- Reads the items of a list in a map that is not indented further. -/
def unindentedItems : Nat → Reader (List Node)
  | 0 => refuse
  | fuel + 1 => do
    if !(← skipIf .blockEntry) then return []
    let item ← nodeUnless fuel true false [.blockEntry, .key, .value, .blockEnd]
    return item :: (← unindentedItems fuel)

/-- Reads the entries of a map that is told by indentation. -/
def blockEntries : Nat → Reader (List (Node × Node))
  | 0 => refuse
  | fuel + 1 => do
    if ← skipIf .blockEnd then return []
    if !(← skipIf .key) then refuse
    let key ← nodeUnless fuel true true [.key, .value, .blockEnd]
    let value ←
      if ← skipIf .value then nodeUnless fuel true true [.key, .value, .blockEnd]
      else pure nothing
    return (key, value) :: (← blockEntries fuel)

/-- Reads the items of a list in brackets. An item with a key is a map with one entry. -/
def flowItems : Nat → Bool → Reader (List Node)
  | 0, _ => refuse
  | fuel + 1, first => do
    if ← skipIf .flowListEnd then return []
    if !first then
      if !(← skipIf .flowEntry) then refuse
    if ← skipIf .flowListEnd then return []
    let item ←
      if ← skipIf .key then
        let key ← itemKey fuel
        pure (.map none [(key, ← flowValue fuel [.flowEntry, .flowListEnd])])
      else node fuel false false
    return item :: (← flowItems fuel false)

/-- Reads the key of an item. Where there is none, the token that shows it is passed over. -/
def itemKey : Nat → Reader Node
  | 0 => refuse
  | fuel + 1 => do
    if [Token.value, .flowEntry, .flowListEnd].contains (← peek) then
      skip
      return nothing
    node fuel false false

/-- Reads the value of an entry in brackets, if there is one. -/
def flowValue : Nat → List Token → Reader Node
  | 0, _ => refuse
  | fuel + 1, ends => do
    if ← skipIf .value then nodeUnless fuel false false ends else return nothing

/-- Reads the entries of a map in brackets. -/
def flowEntries : Nat → Bool → Reader (List (Node × Node))
  | 0, _ => refuse
  | fuel + 1, first => do
    if ← skipIf .flowMapEnd then return []
    if !first then
      if !(← skipIf .flowEntry) then refuse
    if ← skipIf .flowMapEnd then return []
    let ends := [Token.flowEntry, .flowMapEnd]
    let entry ←
      if ← skipIf .key then
        let key ← nodeUnless fuel false false (.value :: ends)
        pure (key, ← flowValue fuel ends)
      else pure (← node fuel false false, nothing)
    return entry :: (← flowEntries fuel false)

end

/-- The short forms that need no directive. -/
def standardHandles : List (String × Tag) :=
  [("!", .mark), ("!!", .standard "")]

/-- Reads directives up to the start of a document: at most one version, which must be known, and
different short forms. Tells whether there were any. -/
def directives : Nat → Bool → List (String × Tag) → Reader Bool
  | 0, _, _ => refuse
  | fuel + 1, hasVersion, handles => do
    match ← peek with
    | .version major minor =>
      if hasVersion ∨ major ≠ 1 ∨ (minor ≠ 1 ∧ minor ≠ 2) then refuse
      skip
      directives fuel true handles
    | .tagHandle handle expansion =>
      if (handles.lookup handle).isSome then refuse
      skip
      directives fuel hasVersion ((handle, expansion) :: handles)
    | _ =>
      modify fun source => { source with handles := handles ++ standardHandles }
      return hasVersion || !handles.isEmpty

/-- Passes over marks of the end of a document. -/
def skipDocumentEnds : Nat → Reader Unit
  | 0 => return ()
  | fuel + 1 => do
    if ← skipIf .documentEnd then skipDocumentEnds fuel

/-- Reads the only document, if there is one. -/
def document (fuel : Nat) : Reader (Option Node) := do
  if (← peek) = .endOfText then return none
  let hasDirectives ← directives fuel false []
  let hasStart ← skipIf .documentStart
  if hasDirectives ∧ !hasStart then refuse
  let node ←
    if hasStart then
      let next ← peek
      match next with
      | .version .. | .tagHandle .. | .documentStart | .documentEnd | .endOfText => pure nothing
      | _ => node fuel true false
    else node fuel true false
  skipDocumentEnds fuel
  if (← peek) ≠ .endOfText then refuse
  return some node

end Reader

mutual

/-- The number of marks that tell a node: one for a scalar or a reference, and two for the ends of a
collection. -/
def marks : Node → Nat
  | scalar .. => 1
  | reference _ => 1
  | list _ items => 2 + itemMarks items
  | map _ entries => 2 + entryMarks entries

/-- The number of marks that tell items. -/
def itemMarks : List Node → Nat
  | [] => 0
  | item :: rest => item.marks + itemMarks rest

/-- The number of marks that tell entries. -/
def entryMarks : List (Node × Node) → Nat
  | [] => 0
  | (key, value) :: rest => key.marks + value.marks + entryMarks rest

end

end Node

/-- A document. -/
structure Document where
  /-- The node that holds all others. -/
  root : Node
  /-- The nodes with places, those that begin last first. -/
  targets : List (Nat × Node)

namespace Document

/-- The node with a place. -/
def target? (document : Document) (place : Nat) : Option Node :=
  document.targets.lookup place

/-- The document in a text. A text without one holds nothing at all. -/
def ofText? (text : String) : Option Document := do
  let tokens ← Token.ofText? text
  let fuel := 4 * tokens.length + 4
  let (root, source) ← Node.Reader.document fuel ⟨tokens, [], #[], []⟩
  return ⟨root.getD .nothing, source.targets.toList.reverse⟩

end Document

end SingingVoice.Yaml
