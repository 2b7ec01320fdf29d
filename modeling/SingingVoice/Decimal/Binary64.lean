import SingingVoice.Decimal.Basic
import SingingVoice.Word

/-!
# Binary64 numbers as exact numbers

A binary64 pattern is a sign, a natural mantissa and a power of two. This file takes patterns apart
(`Binary64.ofBits`), finds the pattern nearest to a ratio of naturals (`Binary64.nearest`), and
finds the decimals that stand for a pattern: the shortest one that reads back (`shortest`), the one
with a given number of significant digits (`significant`) and the one with a given number of places
(`fixedPlaces`). All of it is exact arithmetic on natural numbers.
-/

namespace SingingVoice

/-- Where a value goes that lies exactly between two neighbours. -/
inductive Tie where
  /-- To the larger neighbour. -/
  | up
  /-- To the neighbour whose last digit is even. -/
  | even
deriving DecidableEq, Repr

/-- The quotient of two naturals rounded to a whole number. -/
def Tie.roundDiv (tie : Tie) (num den : Nat) : Nat :=
  let q := num / den
  let r := num % den
  let up := den < 2 * r ∨ (2 * r = den ∧ (tie = .up ∨ q % 2 = 1))
  if up then q + 1 else q

/-- What a binary64 pattern stands for. -/
inductive Binary64 where
  /-- Not a number. -/
  | nan
  /-- An infinity. -/
  | infinity (negative : Bool)
  /-- The mantissa times two to the exponent, negated if the sign says so. -/
  | finite (negative : Bool) (mantissa : Nat) (exponent : Int)
deriving DecidableEq, Repr

namespace Binary64

/-- Takes a bit pattern apart. -/
def ofBits (bits : UInt64) : Binary64 :=
  let n := bits.toNat
  let negative := n / Word.count 63 = 1
  let biased : Nat := n / Word.count 52 % Word.count 11
  let fraction := n % Word.count 52
  if biased = 2047 then
    if fraction = 0 then .infinity negative else .nan
  else if biased = 0 then .finite negative fraction (-1074)
  else .finite negative (Word.count 52 + fraction) (biased - 1075)

/-- A ratio of two naturals equal to `n · base ^ exponent`. -/
def ratio (base n : Nat) (exponent : Int) : Nat × Nat :=
  if 0 ≤ exponent then (n * Nat.pow base exponent.toNat, 1)
  else (n, Nat.pow base (-exponent).toNat)

/-- Whether `num / den` is at least `base ^ exponent`. -/
def reaches (base num den : Nat) (exponent : Int) : Bool :=
  if 0 ≤ exponent then den * Nat.pow base exponent.toNat ≤ num
  else den ≤ num * Nat.pow base (-exponent).toNat

/-- The greatest exponent `k` with `2 ^ k ≤ num / den`, for positive `num` and `den`. -/
def floorLog2 (num den : Nat) : Int :=
  let k : Int := num.log2 - den.log2
  if reaches 2 num den k then k else k - 1

/-- The greatest exponent `k` with `10 ^ k ≤ num / den`, for positive `num` and `den`. -/
def floorLog10 (num den : Nat) : Int :=
  if den ≤ num then (Decimal.digits (num / den)).length - 1
  else
    let k : Int := -(Decimal.digits (den / num)).length
    if reaches 10 num den (k + 1) then k + 1 else k

/-- The ratio `num / den` in units of `base ^ exponent`. -/
def inUnits (base num den : Nat) (exponent : Int) : Nat × Nat :=
  if 0 ≤ exponent then (num, den * Nat.pow base exponent.toNat)
  else (num * Nat.pow base (-exponent).toNat, den)

/-- The ratio `num / den` in units of `base ^ exponent`, rounded to a whole number. -/
def roundTo (tie : Tie) (base num den : Nat) (exponent : Int) : Nat :=
  let (n, d) := inUnits base num den exponent
  tie.roundDiv n d

/-- The pattern of the binary64 number nearest to `num / den`, ties to the even mantissa; values
past the range become infinite. The exponent field and the mantissa are added, so a mantissa that
rounds up to the next power of two carries into the exponent. -/
def nearest (negative : Bool) (num den : Nat) : UInt64 :=
  let magnitude :=
    if num = 0 then 0
    else
      let unit := max (floorLog2 num den - 52) (-1074)
      (unit + 1074).toNat * Word.count 52 + roundTo .even 2 num den unit
  let bounded := min magnitude (2047 * Word.count 52)
  UInt64.ofNat (bounded + if negative then Word.count 63 else 0)

/-- The pattern of the binary64 number nearest to a decimal. Decimals far outside the range are
answered without computing their powers of ten. -/
def ofDecimal : Decimal → UInt64
  | .nan => 0x7ff8000000000000
  | .infinity negative => if negative then 0xfff0000000000000 else 0x7ff0000000000000
  | .finite negative coefficient exponent =>
    if coefficient = 0 then nearest negative 0 1
    else
      let size := Decimal.magnitude coefficient exponent
      if 400 < size then ofDecimal (.infinity negative)
      else if size < -400 then nearest negative 0 1
      else
        let (num, den) := ratio 10 coefficient exponent
        nearest negative num den

/-- The bounds of the numbers that round to `mantissa · 2 ^ exponent`, in quarter units. The lower
gap is half as wide at a power of two, except where the exponent is the least. -/
def roundingInterval (mantissa : Nat) (exponent : Int) : Nat × Nat :=
  let atPower := mantissa = Word.count 52 ∧ exponent ≠ -1074
  let lower := if atPower then 4 * mantissa - 1 else 4 * mantissa - 2
  (lower, 4 * mantissa + 2)

/-- Whether `coefficient · 10 ^ place` reads back as `mantissa · 2 ^ exponent`: it lies between the
bounds of the rounding interval, which belong to it for an even mantissa. -/
def readsBack (mantissa : Nat) (exponent : Int) (coefficient : Nat) (place : Int) : Bool :=
  let (lower, upper) := roundingInterval mantissa exponent
  let (num, den) := ratio 10 coefficient place
  let (scale, unit) := ratio 2 1 (exponent - 2)
  let value := num * unit
  let low := lower * scale * den
  let high := upper * scale * den
  if mantissa % 2 = 0 then low ≤ value && value ≤ high else low < value && value < high

/-- The coefficient on the grid of `10 ^ place` that reads back, if any does: of the value's two
neighbours on the grid the nearer, else the other. -/
def gridPoint? (tie : Tie) (mantissa : Nat) (exponent place : Int) : Option Nat :=
  let (num, den) := ratio 2 mantissa exponent
  let (n, d) := inUnits 10 num den place
  let near := tie.roundDiv n d
  let far := if near = n / d then near + 1 else near - 1
  [near, far].find? fun c => readsBack mantissa exponent c place

/-- Drops trailing zeros of a positive coefficient into the exponent. -/
def normalize (coefficient : Nat) (exponent : Int) : Nat × Int :=
  go (Decimal.digits coefficient).length coefficient exponent
where
  /-- Divides by ten at most `fuel` times. -/
  go : Nat → Nat → Int → Nat × Int
    | 0, c, e => (c, e)
    | fuel + 1, c, e => if c ≠ 0 ∧ c % 10 = 0 then go fuel (c / 10) (e + 1) else (c, e)

/-- The decimal with the fewest digits that reads back as the given number, and of those the
nearest; an exact tie goes as asked. Seventeen digits always suffice. -/
def shortest (tie : Tie) : Binary64 → Decimal
  | .nan => .nan
  | .infinity negative => .infinity negative
  | .finite negative mantissa exponent =>
    if mantissa = 0 then .finite negative 0 0
    else
      let (num, den) := ratio 2 mantissa exponent
      let top := floorLog10 num den
      let hit? := (List.range 17).findSome? fun (extra : Nat) =>
        (gridPoint? tie mantissa exponent (top - extra)).map fun c => (c, top - extra)
      let (coefficient, place) := hit?.getD (0, 0)
      let (coefficient, place) := normalize coefficient place
      .finite negative coefficient place

/-- The coefficient and the place of a positive number rounded to a count of significant digits,
ties to the even digit. -/
def significant (count mantissa : Nat) (exponent : Int) : Nat × Int :=
  let (num, den) := ratio 2 mantissa exponent
  let place := floorLog10 num den - count + 1
  let c := roundTo .even 10 num den place
  if c = Nat.pow 10 count then (Nat.pow 10 (count - 1), place + 1) else (c, place)

/-- Writes a number with exactly so many places after the point, ties to the even digit. -/
def fixedPlaces (places : Nat) : Binary64 → String
  | .nan => Decimal.positional .nan
  | .infinity negative => Decimal.positional (.infinity negative)
  | .finite negative mantissa exponent =>
    let (num, den) := ratio 2 mantissa exponent
    let c := roundTo .even 10 num den (-(places : Int))
    let (whole, fraction) := Decimal.pointDigits c (-(places : Int))
    Decimal.signText negative ++ String.ofList whole ++
      (if fraction.isEmpty then "" else "." ++ String.ofList fraction)

end Binary64

end SingingVoice
