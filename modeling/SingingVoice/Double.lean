import SingingVoice.Scalar

/-!
# Double-precision numbers

The numbers that the library runs with. A `Double` is a binary64 pattern, so that a value which is
not a number keeps its sign and its payload where it is stored, passed on or computed with. The
arithmetic is that of `Float`, which has only one such value: where an operation gives no number,
its result is the first operand that is not a number, made quiet, and `Double.invalid` if all
operands are numbers. A change of sign only touches the sign bit.
-/

namespace SingingVoice

/-- A binary64 number by its bit pattern: sign, exponent and fraction, from the top. -/
structure Double where
  bits : UInt64
deriving Repr, Inhabited

namespace Double

/-- The bit of the sign. -/
def signBit : UInt64 :=
  0x8000000000000000

/-- The bits of the exponent, all of which are set in infinities and in what is not a number. -/
def exponentBits : UInt64 :=
  0x7ff0000000000000

/-- The first bit of the fraction, which is set in what is quietly not a number. -/
def quietBit : UInt64 :=
  0x0008000000000000

/-- What an operation gives that has no numerical result. -/
def invalid : Double :=
  ⟨signBit ||| exponentBits ||| quietBit⟩

/-- Whether a pattern stands for no number: its exponent is full and its fraction is not zero. -/
def isNaN (x : Double) : Bool :=
  exponentBits < x.bits &&& ~~~signBit

/-- The same pattern as a quiet one. -/
def quiet (x : Double) : Double :=
  ⟨x.bits ||| quietBit⟩

/-- The number in arithmetic, where all that is not a number is the same. -/
@[inline] def toFloat (x : Double) : Float :=
  .ofBits x.bits

/-- The pattern of a number. -/
@[inline] def ofFloat (x : Float) : Double :=
  ⟨x.toBits⟩

/-- An operation on one number. -/
@[inline] def map (f : Float → Float) (x : Double) : Double :=
  let result := f x.toFloat
  if result == result then ofFloat result else if x.isNaN then x.quiet else invalid

/-- An operation on two numbers. -/
@[inline] def map₂ (f : Float → Float → Float) (x y : Double) : Double :=
  let result := f x.toFloat y.toFloat
  if result == result then ofFloat result
  else if x.isNaN then x.quiet
  else if y.isNaN then y.quiet
  else invalid

/-- The number rounded to single precision, whose patterns have a fraction of 23 bits. -/
def single (x : Double) : Double :=
  if x.isNaN then ⟨x.quiet.bits &&& 0xffffffffe0000000⟩ else ofFloat x.toFloat.toFloat32.toFloat

/-- The number that a single-precision pattern stands for. The fraction moves up by 29 bits. -/
def ofSingle (pattern : UInt32) : Double :=
  let value := (Float32.ofBits pattern).toFloat
  if value == value then ofFloat value
  else
    let sign := (pattern &&& 0x80000000).toUInt64 <<< 32
    let fraction := (pattern &&& 0x007fffff).toUInt64 <<< 29
    quiet ⟨sign ||| exponentBits ||| fraction⟩

end Double

instance : Scalar Double where
  add := Double.map₂ Float.add
  sub := Double.map₂ Float.sub
  mul := Double.map₂ Float.mul
  div := Double.map₂ Float.div
  neg x := ⟨x.bits ^^^ Double.signBit⟩
  lt x y := x.toFloat < y.toFloat
  le x y := x.toFloat ≤ y.toFloat
  beq x y := x.toFloat == y.toFloat
  ofScientific mantissa negative exponent := .ofFloat (.ofScientific mantissa negative exponent)
  decidableLT x y := Float.decLt x.toFloat y.toFloat
  decidableLE x y := Float.decLe x.toFloat y.toFloat
  ofNat n := .ofFloat (.ofNat n)
  ofInt n := .ofFloat (.ofInt n)
  ofSingle := Double.ofSingle
  round := Double.map Float.round
  floor := Double.map Float.floor
  ceil := Double.map Float.ceil
  abs x := ⟨x.bits &&& ~~~Double.signBit⟩
  sqrt := Double.map Float.sqrt
  pow := Double.map₂ Float.pow
  log2 := Double.map Float.log2
  cos := Double.map Float.cos
  sin := Double.map Float.sin
  pi := .ofFloat 3.141592653589793
  isFinite x := x.toFloat.isFinite
  toNat x := x.toFloat.toUInt64.toNat
  toInt x := x.toFloat.toInt64.toInt
  single := Double.single

end SingingVoice
