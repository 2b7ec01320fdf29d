import SingingVoice.Decimal.Numeral

/-!
# Values

Documents are trees of values: the truth values, numbers and texts at the leaves, and lists and maps
of them. The entries of a map keep their order. A number is a whole number or a decimal, and either
may stand wherever a number is asked for. Whole numbers with a minus sign are kept apart from the
others, because only those without one may count places.
-/

namespace SingingVoice

/-- A tree of values. -/
inductive Value where
  /-- The absent value. -/
  | null
  /-- A truth value. -/
  | bool (truth : Bool)
  /-- A whole number. -/
  | nat (number : Nat)
  /-- A whole number behind a minus sign. -/
  | negated (number : Nat)
  /-- A decimal number. -/
  | float (number : Decimal)
  /-- A text. -/
  | text (string : String)
  /-- A list of values. -/
  | list (items : List Value)
  /-- A map from keys to values. -/
  | map (entries : List (Value × Value))
deriving Inhabited

namespace Value

/-- The map with texts as its keys. -/
def record (entries : List (String × Value)) : Value :=
  map (entries.map fun (key, value) => (text key, value))

/-- A machine number as a value. -/
def ofNumeral {α : Type} [Numeral α] (x : α) : Value :=
  float (Numeral.toDecimal .even x)

/-- The text that a value is. -/
def text? : Value → Option String
  | text string => some string
  | _ => none

/-- The natural number below a bound that a value is. -/
def natBelow? (bound : Nat) : Value → Option Nat
  | nat number => if number < bound then some number else none
  | negated number => if number = 0 ∧ number < bound then some number else none
  | _ => none

/-- The place in a row that a value is. -/
def place? : Value → Option Nat
  | nat number => some number
  | _ => none

/-- The number that a value is. A zero keeps its minus sign only if it is a decimal. -/
def numeral? {α : Type} [Numeral α] : Value → Option α
  | nat number => some (Numeral.ofDecimal (.finite false number 0))
  | negated number => some (Numeral.ofDecimal (.finite (number ≠ 0) number 0))
  | float number => some (Numeral.ofDecimal number)
  | _ => none

end Value

namespace Decimal

/-- The least power of ten that is written without an exponent. -/
def leastPositional : Int :=
  -5

/-- The least power of ten above those that are written without an exponent. -/
def leastScientific : Int :=
  16

/-- Writes a finite number in the way of documents: with at least one digit after the point, or with
an exponent if it is very small or very large. The flag asks for a plus sign before exponents that
are not negative. -/
def documentText (plus negative : Bool) (coefficient : Nat) (exponent : Int) : String :=
  let power := magnitude coefficient exponent
  if coefficient = 0 then signText negative ++ "0.0"
  else if leastPositional ≤ power ∧ power < leastScientific then
    positional (.finite negative coefficient exponent) ++ (if 0 ≤ exponent then ".0" else "")
  else
    signText negative ++ leadingPoint coefficient ++ "e" ++
      (if plus ∧ 0 ≤ power then "+" else "") ++ toString power

end Decimal

end SingingVoice
