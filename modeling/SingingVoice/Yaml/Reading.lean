import SingingVoice.Yaml.Node
import SingingVoice.Yaml.Resolution

/-!
# Reading documents

A reading takes something out of a document. It follows the references that it meets, but not more
than a hundred for every mark in the document, so that references to references cannot make it
endless. `Node.value` reads the value that a node stands for; the other readings take scalars as
they are written.
-/

namespace SingingVoice.Yaml

/-- What takes something out of a document. The number is how many references may still be
followed. -/
abbrev Reading :=
  ReaderT Document (StateT Nat Option)

/-- How many references may be followed for every mark in a document. -/
def followedPerMark : Nat :=
  100

/-- What a reading takes out of a document. -/
def Document.read? {β : Type} (document : Document) (reading : Reading β) : Option β :=
  ((reading.run document).run (followedPerMark * document.root.marks)).map Prod.fst

namespace Node

/-- The node that a reference stands for, or else the node itself. -/
def follow : Node → Reading Node
  | reference place => do
    match ← get with
    | 0 => failure
    | left + 1 =>
      set left
      (← read).target? place
  | node => return node

/-- How deep collections may be nested. -/
def maxDepth : Nat :=
  128

/-- Refuses collections of a local type. -/
def refuseLocal (tag? : Option Tag) : Reading Unit :=
  if tag?.any Tag.isLocal then failure else return ()

/-- The value of a scalar. -/
def scalarValue : Node → Reading Value
  | scalar tag? style text => scalarValue? tag? style text
  | _ => failure

/-- The value that a node stands for, if its collections are nested at most so deep. Nodes of local
types stand for none. -/
def value : Nat → Node → Reading Value
  | 0, node => do (← node.follow).scalarValue
  | depth + 1, node => do
    match ← node.follow with
    | list tag? items =>
      refuseLocal tag?
      return .list (← items.mapM (value depth))
    | map tag? entries =>
      refuseLocal tag?
      return .map (← entries.mapM fun (key, node) =>
        return (← value depth key, ← value depth node))
    | node => node.scalarValue

/-- The text of a scalar, as it is written. -/
def text (node : Node) : Reading String := do
  match ← node.follow with
  | scalar _ _ text => return text
  | _ => failure

/-- The text of a scalar that is written plainly, or as a block with the tag of a standard type. -/
def plainText (type : String) (node : Node) : Reading String := do
  match ← node.follow with
  | scalar _ .plain text => return text
  | scalar tag? .literal text => if tag? = some (.standard type) then return text else failure
  | _ => failure

/-- The natural number below a bound in a scalar. -/
def natBelow (bound : Nat) (node : Node) : Reading Nat := do
  let whole ← Plain.whole? (← node.plainText "int")
  if !whole.negative ∧ whole.size < bound then return whole.size else failure

/-- The decimal number in a scalar. -/
def float (node : Node) : Reading Decimal := do
  Plain.float? (← node.plainText "float")

/-- The word in a scalar, or the local tag of a scalar that means nothing. -/
def word (node : Node) : Reading String := do
  match ← node.follow with
  | scalar tag? style text =>
    match tag?.bind Tag.localName? with
    | none => return text
    | some name => if style = .plain ∧ Plain.isNull text then return name else failure
  | _ => failure

/-- Whether a node is written as nothing at all. -/
def isBare : Node → Bool
  | scalar _ .plain "" => true
  | _ => false

/-- The items of a list. Nothing at all stands for the list without items. -/
def items (node : Node) : Reading (List Node) := do
  match ← node.follow with
  | list _ items => return items
  | node => if node.isBare then return [] else failure

/-- The entries of a map. Nothing at all stands for the map without entries. -/
def entries (node : Node) : Reading (List (Node × Node)) := do
  match ← node.follow with
  | map _ entries => return entries
  | node => if node.isBare then return [] else failure

end Node

end SingingVoice.Yaml
