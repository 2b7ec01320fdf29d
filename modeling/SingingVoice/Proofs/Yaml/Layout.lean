import SingingVoice.Proofs.Yaml.Scalars
import SingingVoice.Yaml.Reading
import SingingVoice.Yaml.Render

/-!
# The nodes of written values

`Value.node` is the node that a value is written as: collections as such, texts in the styles that
are chosen for them and everything else plainly. A value is laid out (`Value.LaidOut`) if just this
node is found in its text. That tells where scalars and collections start and end, not what they
mean: what readings take out of the nodes of texts and numbers is derived here.
-/

namespace SingingVoice

namespace Yaml

/-! ## Equality of nodes -/

namespace Node

mutual

/-- Whether two nodes are the same. -/
def same : Node → Node → Bool
  | scalar tag style text, scalar tag' style' text' => tag = tag' && style = style' && text = text'
  | list tag items, list tag' items' => tag = tag' && sameItems items items'
  | map tag entries, map tag' entries' => tag = tag' && sameEntries entries entries'
  | reference place, reference place' => place = place'
  | _, _ => false

/-- Whether two lists hold the same items. -/
def sameItems : List Node → List Node → Bool
  | [], [] => true
  | item :: rest, item' :: rest' => item.same item' && sameItems rest rest'
  | _, _ => false

/-- Whether two maps hold the same entries. -/
def sameEntries : List (Node × Node) → List (Node × Node) → Bool
  | [], [] => true
  | (key, node) :: rest, (key', node') :: rest' =>
    key.same key' && node.same node' && sameEntries rest rest'
  | _, _ => false

end

mutual

theorem same_iff : ∀ first second : Node, first.same second ↔ first = second
  | scalar .., scalar .. => by simp [same, and_assoc]
  | list _ items, list _ items' => by simp [same, sameItems_iff items items']
  | map _ entries, map _ entries' => by simp [same, sameEntries_iff entries entries']
  | reference _, reference _ => by simp [same]
  | scalar .., list .. | scalar .., map .. | scalar .., reference _ => by simp [same]
  | list .., scalar .. | list .., map .. | list .., reference _ => by simp [same]
  | map .., scalar .. | map .., list .. | map .., reference _ => by simp [same]
  | reference _, scalar .. | reference _, list .. | reference _, map .. => by simp [same]

theorem sameItems_iff : ∀ first second : List Node, sameItems first second ↔ first = second
  | [], [] => by simp [sameItems]
  | item :: rest, item' :: rest' => by
    simp [sameItems, same_iff item item', sameItems_iff rest rest']
  | [], _ :: _ | _ :: _, [] => by simp [sameItems]

theorem sameEntries_iff :
    ∀ first second : List (Node × Node), sameEntries first second ↔ first = second
  | [], [] => by simp [sameEntries]
  | (key, node) :: rest, (key', node') :: rest' => by
    simp [sameEntries, same_iff key key', same_iff node node', sameEntries_iff rest rest']
  | [], _ :: _ | _ :: _, [] => by simp [sameEntries]

end

instance : DecidableEq Node := fun first second => decidable_of_iff _ (same_iff first second)

end Node

deriving instance DecidableEq for Document

end Yaml

/-! ## Written values -/

namespace Value

open Yaml

mutual

/-- The node that a value is written as. -/
def node : Value → Node
  | null => .scalar none .plain "null"
  | bool truth => .scalar none .plain (toString truth)
  | nat number => .scalar none .plain (toString number)
  | negated number => .scalar none .plain ("-" ++ toString number)
  | float number => .scalar none .plain (Scalar.number number)
  | text string => .scalar none (.ofText string.toList) string
  | list items => .list none (itemNodes items)
  | map entries => .map none (entryNodes entries)

/-- The nodes of items. -/
def itemNodes : List Value → List Node
  | [] => []
  | item :: rest => item.node :: itemNodes rest

/-- The nodes of entries. -/
def entryNodes : List (Value × Value) → List (Node × Node)
  | [] => []
  | (key, value) :: rest => (key.node, value.node) :: entryNodes rest

end

/-- In the text of a value just the node is found that the value is written as. -/
def LaidOut (value : Value) : Prop :=
  Document.ofText? value.yaml = some ⟨value.node, []⟩

instance (value : Value) : Decidable value.LaidOut :=
  inferInstanceAs (Decidable (_ = _))

theorem itemNodes_eq (items : List Value) : itemNodes items = items.map node := by
  induction items with
  | nil => rfl
  | cons item rest ih => rw [itemNodes, ih, List.map_cons]

theorem entryNodes_eq (entries : List (Value × Value)) :
    entryNodes entries = entries.map fun entry => (entry.1.node, entry.2.node) := by
  induction entries with
  | nil => rfl
  | cons entry rest ih => rw [entryNodes, ih, List.map_cons]

/-- A list is written as the list of the nodes of its items. -/
theorem node_list (items : List Value) : (list items).node = .list none (items.map node) := by
  rw [node, itemNodes_eq]

/-- A record is written as a map from its keys. -/
theorem node_record (entries : List (String × Value)) :
    (record entries).node =
      .map none (entries.map fun entry => ((text entry.1).node, entry.2.node)) := by
  rw [record, node, entryNodes_eq, List.map_map]
  rfl

end Value

/-! ## Readings -/

/-- Readings that take something out of every node take a list out of all of them. -/
theorem Yaml.mapM_map_eq_pure {m : Type → Type} [Monad m] [LawfulMonad m] {β γ δ : Type}
    {f : γ → m δ} {g : β → γ} {r : β → δ} {xs : List β} (h : ∀ x ∈ xs, f (g x) = pure (r x)) :
    (xs.map g).mapM f = pure (xs.map r) := by
  induction xs with
  | nil => rfl
  | cons x xs ih =>
    rw [List.map_cons, List.mapM_cons, h x List.mem_cons_self, pure_bind,
      ih fun x' hx' => h x' (List.mem_cons_of_mem _ hx'), pure_bind, List.map_cons]

/-- A reading that only returns a result finds it in every document. -/
theorem Yaml.Document.read?_pure {β : Type} (document : Document) (result : β) :
    document.read? (pure result) = some result := rfl

namespace Yaml.Node

variable {tag? : Option Tag} {style : ScalarStyle} {string : String} {value : Value}

/-- Only references have to be followed. -/
@[simp] theorem follow_map (entries : List (Node × Node)) :
    (map tag? entries).follow = pure (map tag? entries) := rfl

/-- Collections without a tag are not refused. -/
@[simp] theorem refuseLocal_none : refuseLocal none = pure () := rfl

theorem items_list (items : List Node) : (list tag? items).items = pure items := rfl

theorem entries_map (entries : List (Node × Node)) : (map tag? entries).entries = pure entries :=
  rfl

/-- A scalar has the value that it means, however deep collections may be nested. -/
theorem value_scalar (h : scalarValue? tag? style string = some value) (depth : Nat) :
    (scalar tag? style string).value depth = pure value := by
  have hscalar : (scalar tag? style string).scalarValue = pure value := by
    rw [scalarValue, h]
    rfl
  cases depth <;> exact hscalar

theorem text_text (string : String) : (Value.text string).node.text = pure string := rfl

theorem word_text (string : String) : (Value.text string).node.word = pure string := rfl

theorem natBelow_nat {number bound : Nat} (hbound : number < bound) :
    (Value.nat number).node.natBelow bound = pure number := by
  show (do
    let whole ← (Plain.whole? (toString number) : Reading Plain.Whole)
    if !whole.negative ∧ whole.size < bound then return whole.size else failure) = _
  rw [Plain.whole?_toString]
  show (if !false ∧ number < bound then (pure number : Reading Nat) else failure) = _
  rw [if_pos ⟨rfl, hbound⟩]

/-- A binary64 number is read back from the scalar that it is written as. -/
theorem float_ofNumeral {x : Double} (hnumber : x.isNaN = false) :
    Numeral.ofDecimal <$> (Value.ofNumeral x).node.float = pure x := by
  obtain ⟨d, hfloat, -, rfl⟩ := Plain.exists_float hnumber
  show Numeral.ofDecimal <$>
    (Plain.float? (Scalar.number (Numeral.toDecimal .even _)) : Reading Decimal) = _
  rw [hfloat]
  rfl

end Yaml.Node

namespace Value

open Yaml

/-- What a scalar is read as. A decimal may come back with other digits. -/
def reread : Value → Value
  | float number => float ((Plain.float? (Scalar.number number)).getD number)
  | value => value

/-- A value that is written as a scalar and read back, however deep collections may be nested. -/
def IsRead (value : Value) : Prop :=
  ∀ depth, value.node.value depth = pure value.reread

theorem isRead_text (string : String) : (text string).IsRead :=
  Node.value_scalar (scalarValue?_text string)

theorem isRead_nat {number : Nat} (hnumber : number < UInt64.size) : (nat number).IsRead := by
  have hvalue : scalarValue? none .plain (toString number) = some (.nat number) :=
    Plain.value?_toString hnumber
  exact Node.value_scalar hvalue

variable {x : Double}

theorem reread_ofNumeral (hnumber : x.isNaN = false) :
    ∃ d, (ofNumeral x).reread = float d ∧ (ofNumeral x).IsRead ∧ Numeral.ofDecimal d = x := by
  obtain ⟨d, hfloat, hvalue, hd⟩ := Plain.exists_float hnumber
  have hreread : (ofNumeral x).reread = float d := by
    rw [ofNumeral, reread, hfloat, Option.getD_some]
  have hmeaning :
      scalarValue? none .plain (Scalar.number (Numeral.toDecimal .even x)) = some (.float d) :=
    hvalue
  refine ⟨d, hreread, fun depth => ?_, hd⟩
  rw [hreread]
  exact Node.value_scalar hmeaning depth

theorem isRead_ofNumeral (hnumber : x.isNaN = false) : (ofNumeral x).IsRead := by
  obtain ⟨-, -, hread, -⟩ := reread_ofNumeral hnumber
  exact hread

/-- A binary64 number is the number of what it is read as. -/
theorem numeral?_reread (hnumber : x.isNaN = false) : (ofNumeral x).reread.numeral? = some x := by
  obtain ⟨d, hreread, -, hd⟩ := reread_ofNumeral hnumber
  rw [hreread, numeral?, hd]

end Value

end SingingVoice
