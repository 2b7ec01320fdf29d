/-!
# Decimal numbers

A `Decimal` is what a decimal numeral denotes: a signed coefficient with a power of ten, an
infinity, or no number at all. `Decimal.parse?` reads the numerals of sample records,
`Decimal.positional` writes a value without an exponent and `Decimal.scientific` writes it with one.
How a machine number is turned into a decimal and back is the business of `SingingVoice.Numeral`.
-/

namespace SingingVoice

/-- The value of a decimal numeral. -/
inductive Decimal where
  /-- Not a number. -/
  | nan
  /-- An infinity. -/
  | infinity (negative : Bool)
  /-- The coefficient times ten to the exponent, negated if the sign says so. -/
  | finite (negative : Bool) (coefficient : Nat) (exponent : Int)
deriving DecidableEq, Repr, Inhabited

namespace Decimal

/-- The decimal digits of a natural number, most significant first. -/
def digits (n : Nat) : List Char :=
  Nat.toDigits 10 n

/-- The value of a character as a digit in the given base, letters counting from ten. -/
def digit? (base : Nat) (c : Char) : Option Nat :=
  let value? :=
    if '0' ≤ c ∧ c ≤ '9' then some (c.toNat - '0'.toNat)
    else if 'a' ≤ c ∧ c ≤ 'z' then some (c.toNat - 'a'.toNat + 10)
    else if 'A' ≤ c ∧ c ≤ 'Z' then some (c.toNat - 'A'.toNat + 10)
    else none
  value?.filter (· < base)

/-- The number written by a nonempty list of digits in the given base. -/
def natOfDigits? (base : Nat) (cs : List Char) : Option Nat :=
  if cs.isEmpty then none
  else cs.foldlM (fun n c => (digit? base c).map (base * n + ·)) 0

/-- Whether a character is one of the ten decimal digits. -/
def isDigit (c : Char) : Bool :=
  '0' ≤ c && c ≤ '9'

/-- Splits a sign off the front; the flag says whether it was a minus. -/
def splitSign : List Char → Bool × List Char
  | '-' :: rest => (true, rest)
  | '+' :: rest => (false, rest)
  | rest => (false, rest)

/-- The integer written by an optional sign and decimal digits. -/
def int? (cs : List Char) : Option Int :=
  let (negative, body) := splitSign cs
  if body.all isDigit then
    (natOfDigits? 10 body).map fun n => if negative then -(n : Int) else n
  else none

/-- The power of ten that an exponent part contributes: nothing, or `e` and an integer. -/
def exponentPart? : List Char → Option Int
  | [] => some 0
  | c :: rest => if c = 'e' ∨ c = 'E' then int? rest else none

/-- An unsigned numeral: digits with an optional point, at least one digit, then an optional
exponent. -/
def unsigned? (negative : Bool) (cs : List Char) : Option Decimal := do
  let whole := cs.takeWhile isDigit
  let afterWhole := cs.dropWhile isDigit
  let (fraction, rest) := match afterWhole with
    | '.' :: tail => (tail.takeWhile isDigit, tail.dropWhile isDigit)
    | _ => ([], afterWhole)
  let coefficient ← natOfDigits? 10 (whole ++ fraction)
  let exponent ← exponentPart? rest
  return .finite negative coefficient (exponent - fraction.length)

/-- Reads a numeral: an optional sign, then `inf`, `infinity` or `nan` in any case, or digits with
an optional point and an optional exponent. -/
def parse? (cs : List Char) : Option Decimal :=
  let (negative, body) := splitSign cs
  let word := String.ofList (body.map Char.toLower)
  if word = "inf" ∨ word = "infinity" then some (.infinity negative)
  else if word = "nan" then some .nan
  else unsigned? negative body

/-- The digits of `coefficient · 10 ^ exponent` before and after the point; there are none after it
if the exponent is not negative. -/
def pointDigits (coefficient : Nat) (exponent : Int) : List Char × List Char :=
  let ds := digits coefficient
  if 0 ≤ exponent then (ds ++ List.replicate exponent.toNat '0', [])
  else
    let places := (-exponent).toNat
    let padded := List.replicate (places + 1 - ds.length) '0' ++ ds
    (padded.take (padded.length - places), padded.drop (padded.length - places))

/-- Writes the sign of a number. -/
def signText (negative : Bool) : String :=
  if negative then "-" else ""

/-- Writes a number with all its digits and never an exponent; a point only before a fraction. -/
def positional : Decimal → String
  | .nan => "NaN"
  | .infinity negative => signText negative ++ "inf"
  | .finite negative coefficient exponent =>
    let (whole, fraction) :=
      if coefficient = 0 then (['0'], []) else pointDigits coefficient exponent
    signText negative ++ String.ofList whole ++
      (if fraction.isEmpty then "" else "." ++ String.ofList fraction)

/-- The power of ten of the first digit of `coefficient · 10 ^ exponent`. -/
def magnitude (coefficient : Nat) (exponent : Int) : Int :=
  exponent + (digits coefficient).length - 1

/-- The digits of a coefficient with a point after the first, if there are more. -/
def leadingPoint (coefficient : Nat) : String :=
  match digits coefficient with
  | first :: rest =>
    String.ofList [first] ++ (if rest.isEmpty then "" else "." ++ String.ofList rest)
  | [] => ""

/-- Writes a finite nonzero number with one digit before the point and an exponent, which carries a
sign only if it is negative. -/
def scientific (negative : Bool) (coefficient : Nat) (exponent : Int) : String :=
  signText negative ++ leadingPoint coefficient ++ "e" ++
    toString (magnitude coefficient exponent)

end Decimal

end SingingVoice
