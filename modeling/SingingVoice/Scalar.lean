/-!
# Scalars

The arithmetic that signals are written in. `Scalar α` collects the operations on sample values,
durations and frequencies that the library uses, so one definition runs on binary64 numbers and can
be reasoned about over an exact field. The running instance is `SingingVoice.Double`. Nothing here
assumes a law; in particular an order comparison with a value that is not a number is false.
-/

namespace SingingVoice

/-- A type of signal values: field operations, order tests, rounding and elementary functions. -/
class Scalar (α : Type) extends
    Add α, Sub α, Mul α, Div α, Neg α, LT α, LE α, BEq α, OfScientific α where
  /-- Decides the strict order. -/
  decidableLT : DecidableLT α
  /-- Decides the order. -/
  decidableLE : DecidableLE α
  /-- The value nearest to a natural number. -/
  ofNat : Nat → α
  /-- The value nearest to an integer. -/
  ofInt : Int → α
  /-- The value that a pattern of a single-precision number stands for. -/
  ofSingle : UInt32 → α
  /-- The nearest whole number, halves away from zero. -/
  round : α → α
  /-- The greatest whole number not above the argument. -/
  floor : α → α
  /-- The least whole number not below the argument. -/
  ceil : α → α
  /-- The absolute value. -/
  abs : α → α
  /-- The square root. -/
  sqrt : α → α
  /-- The first argument raised to the second. -/
  pow : α → α → α
  /-- The logarithm to base two. -/
  log2 : α → α
  /-- The cosine of an angle in radians. -/
  cos : α → α
  /-- The sine of an angle in radians. -/
  sin : α → α
  /-- The ratio of a circle's circumference to its diameter. -/
  pi : α
  /-- Whether the value is a number and not infinite. -/
  isFinite : α → Bool
  /-- The integer part of a positive value as a count, at most the largest machine word; zero for
  negative values and for values that are not numbers. -/
  toNat : α → Nat
  /-- The integer part, cut to the signed machine words; zero for values that are not numbers. -/
  toInt : α → Int
  /-- The value rounded to single precision. -/
  single : α → α

namespace Scalar

variable {α : Type} [Scalar α]

instance : DecidableLT α := Scalar.decidableLT

instance : DecidableLE α := Scalar.decidableLE

/-- Whether the value differs from itself, as a value that is not a number does. -/
def isNaN (x : α) : Bool :=
  !(x == x)

/-- The smaller of two values; a value that is not a number gives way to the other. -/
def min (x y : α) : α :=
  if y < x ∨ isNaN x then y else x

/-- The larger of two values; a value that is not a number gives way to the other. -/
def max (x y : α) : α :=
  if x < y ∨ isNaN x then y else x

/-- The nearest value between `low` and `high`; a value that is not a number stays. -/
def clamp (low high x : α) : α :=
  if x < low then low else if high < x then high else x

/-- The integer part, cut to the range from `low` to `high`. -/
def toIntIn (low high : Int) (x : α) : Int :=
  Max.max low (Min.min high (toInt x))

/-- The sum of a list of values, from the left. -/
def sum (values : List α) : α :=
  values.foldl (· + ·) 0.0

end Scalar

end SingingVoice
