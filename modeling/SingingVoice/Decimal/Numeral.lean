import SingingVoice.Decimal.Binary64
import SingingVoice.Double

/-!
# Numbers as text

`Numeral α` connects a type of numbers with decimals: every value has a shortest decimal, and every
decimal a nearest value. Readers and writers of text formats work on decimals, so they are the same
for every such type; the running instance is `SingingVoice.Double`.
-/

namespace SingingVoice

/-- A type of numbers that decimals are written for and read into. -/
class Numeral (α : Type) where
  /-- The decimal that stands for a value; exact ties between two such decimals go as asked. -/
  toDecimal : Tie → α → Decimal
  /-- The value nearest to a decimal. -/
  ofDecimal : Decimal → α

namespace Numeral

variable {α : Type} [Numeral α]

/-- Writes a value with all its digits and never an exponent. -/
def text (x : α) : String :=
  (toDecimal .up x).positional

/-- Reads the numerals of sample records. -/
def parse? (cs : List Char) : Option α :=
  (Decimal.parse? cs).map ofDecimal

end Numeral

instance : Numeral Double where
  toDecimal tie x := (Binary64.ofBits x.bits).shortest tie
  ofDecimal d := ⟨Binary64.ofDecimal d⟩

end SingingVoice
