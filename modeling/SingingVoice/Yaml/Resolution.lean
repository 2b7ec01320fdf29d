import SingingVoice.Decimal.Binary64
import SingingVoice.Value.Basic
import SingingVoice.Word
import SingingVoice.Yaml.Scalar
import SingingVoice.Yaml.Tag

/-!
# What scalars mean

A plain scalar may be nothing, a truth value or a number, and is a text otherwise. Whole numbers
have an optional sign and are decimal or, after `0x`, `0o` or `0b`, in another base; a decimal one
has no leading zeros. A scalar in another style is a text, and a tag may ask for something else.
`scalarValue?` gives the value that a scalar stands for.
-/

namespace SingingVoice.Yaml

namespace Plain

/-- The words for nothing. -/
def isNullWord (text : String) : Bool :=
  ["~", "null", "Null", "NULL"].contains text

/-- Whether a text is nothing, or a word for it. -/
def isNull (text : String) : Bool :=
  text.isEmpty || isNullWord text

/-- A truth value. -/
def bool? (text : String) : Option Bool :=
  if ["true", "True", "TRUE"].contains text then some true
  else if ["false", "False", "FALSE"].contains text then some false
  else none

/-- Whether a text without its sign consists of digits with a zero before others. -/
def hasLeadingZero (body : List Char) : Bool :=
  match body with
  | '0' :: c :: rest => (c :: rest).all Decimal.isDigit
  | _ => false

/-- The natural number that is written without a sign, in one of four bases. -/
def natural? : List Char → Option Nat
  | '0' :: 'x' :: ds => Decimal.natOfDigits? 16 ds
  | '0' :: 'o' :: ds => Decimal.natOfDigits? 8 ds
  | '0' :: 'b' :: ds => Decimal.natOfDigits? 2 ds
  | ds => if hasLeadingZero ds then none else Decimal.natOfDigits? 10 ds

/-- A whole number as it is written. -/
structure Whole where
  /-- Whether it has a minus sign. -/
  negative : Bool
  /-- The number without its sign. -/
  size : Nat

/-- The whole number in a text. -/
def whole? (text : String) : Option Whole :=
  let (negative, body) := Decimal.splitSign text.toList
  (natural? body).map fun size => ⟨negative, size⟩

/-- Whether a decimal is in the range of binary64 numbers. -/
def inRange (number : Decimal) : Bool :=
  match Binary64.ofBits (Binary64.ofDecimal number) with
  | .finite .. => true
  | _ => false

/-- The decimal number in a text: digits with an optional point and exponent, an infinity or no
number at all. -/
def float? (text : String) : Option Decimal :=
  let (negative, body) := Decimal.splitSign text.toList
  let word := String.ofList body
  if [".inf", ".Inf", ".INF"].contains word then some (.infinity negative)
  else if [".nan", ".NaN", ".NAN"].contains text then some .nan
  else (Decimal.unsigned? negative body).filter inRange

namespace Whole

/-- Whether a number is one of so many bits, with a sign bit if it has a sign. -/
def hasBits (whole : Whole) (bits : Nat) : Bool :=
  if whole.negative then whole.size ≤ Word.count (bits - 1) else whole.size < Word.count bits

/-- The value of a number that a document can hold. -/
def value? (whole : Whole) : Option Value :=
  if whole.hasBits 64 then some (if whole.negative then .negated whole.size else .nat whole.size)
  else none

/-- Whether a number is told from decimals. -/
def isTold (whole : Whole) : Bool :=
  whole.hasBits 128

end Whole

/-- What a plain scalar means. A whole number that is too large for a document is refused, unless it
is so large that it counts as a decimal. -/
def value? (text : String) : Option Value :=
  if isNull text then some .null
  else
    match bool? text, (whole? text).filter Whole.isTold with
    | some truth, _ => some (.bool truth)
    | none, some whole => whole.value?
    | none, none =>
      if hasLeadingZero (Decimal.splitSign text.toList).2 then some (.text text)
      else some (((float? text).map Value.float).getD (.text text))

end Plain

/-- What a scalar means. A tag of a standard type asks for that type, whatever the style. With
another tag a scalar is a text, unless it is plain and the tag is marked like those of local types,
which have no meaning here. -/
def scalarValue? (tag? : Option Tag) (style : ScalarStyle) (text : String) : Option Value :=
  match tag? with
  | none => if style = .plain then Plain.value? text else some (.text text)
  | some tag =>
    if tag.isLocal then none
    else if tag = .standard "bool" then (Plain.bool? text).map .bool
    else if tag = .standard "int" then (Plain.whole? text).bind Plain.Whole.value?
    else if tag = .standard "float" then (Plain.float? text).map .float
    else if tag = .standard "null" then if Plain.isNullWord text then some .null else none
    else if tag.isMarked ∧ style = .plain then Plain.value? text
    else some (.text text)

end SingingVoice.Yaml
