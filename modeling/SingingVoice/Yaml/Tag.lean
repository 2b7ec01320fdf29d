import SingingVoice.Decimal.Basic
import SingingVoice.Text.Utf8

/-!
# Tags

A tag names the type of a node. It is a string of bytes that need not be text, because a percent
sign and two digits may stand for any byte that fits to its neighbours, and it ends before the first
byte that is zero. Tags that start with an exclamation mark name types of the document's own if they
are text, and some others name standard types.
-/

namespace SingingVoice.Yaml

/-- The name of a type, or a part of one. -/
structure Tag where
  /-- The bytes of the name. -/
  bytes : List UInt8
deriving DecidableEq, Repr, Inhabited

namespace Tag

/-- The tag with a text as its name. -/
def ofString (text : String) : Tag :=
  ⟨Utf8.encode text⟩

/-- A tag whose front is given by a short form. -/
def append (front rest : Tag) : Tag :=
  ⟨front.bytes ++ rest.bytes⟩

/-- The tag of a standard type. -/
def standard (type : String) : Tag :=
  ofString ("tag:yaml.org,2002:" ++ type)

/-- The tag that is only an exclamation mark. -/
def mark : Tag :=
  ofString "!"

/-- Whether a tag starts with an exclamation mark. -/
def isMarked (tag : Tag) : Bool :=
  mark.bytes.isPrefixOf tag.bytes

/-- The name of a type of the document's own. -/
def localName? (tag : Tag) : Option String :=
  if tag.isMarked then Utf8.decode? (tag.bytes.drop mark.bytes.length) else none

/-- Whether a tag names a type of the document's own. -/
def isLocal (tag : Tag) : Bool :=
  tag.localName?.isSome

/-- How many bytes go on what a byte starts, if it can start anything. -/
def following? (byte : Nat) : Option Nat :=
  if byte < 0x80 then some 0
  else if 0xc0 ≤ byte ∧ byte < 0xe0 then some 1
  else if 0xe0 ≤ byte ∧ byte < 0xf0 then some 2
  else if 0xf0 ≤ byte ∧ byte < 0xf8 then some 3
  else none

/-- The bytes of a written name, in which a percent sign stands before the two digits of a byte.
The number says how many bytes must still come to go on what an earlier one has started. -/
def bytes? : Nat → List Char → Option (List UInt8)
  | 0, [] => some []
  | _ + 1, [] => none
  | missing, '%' :: high :: low :: rest => do
    let byte ← Decimal.natOfDigits? 16 [high, low]
    let missing ← match missing with
      | 0 => following? byte
      | missing + 1 => if 0x80 ≤ byte ∧ byte < 0xc0 then some missing else none
    return UInt8.ofNat byte :: (← bytes? missing rest)
  | 0, c :: rest => do
    if c = '%' then none
    return Utf8.encode (String.singleton c) ++ (← bytes? 0 rest)
  | _ + 1, _ :: _ => none

/-- The tag with a written name. -/
def ofWritten? (written : List Char) : Option Tag := do
  return ⟨(← bytes? 0 written).takeWhile (· ≠ 0)⟩

end Tag

end SingingVoice.Yaml
