/-!
# Words in bytes

Whole numbers as bytes, the least significant byte first. `Word.bytes` writes the low bytes of a
number, `Word.ofBytes` reads them back, and `Word.signed` reads a number of some bytes as one in
two's complement. `Word.count` is how many words there are of a number of bits.
-/

namespace SingingVoice.Word

/-- The number of words of so many bits. -/
def count (bits : Nat) : Nat :=
  Nat.pow 2 bits

/-- The low `width` bytes of a number. -/
def bytes : Nat → Nat → List UInt8
  | 0, _ => []
  | width + 1, n => UInt8.ofNat (n % 256) :: bytes width (n / 256)

/-- The number that bytes stand for. -/
def ofBytes : List UInt8 → Nat
  | [] => 0
  | b :: rest => b.toNat + 256 * ofBytes rest

/-- A number of `width` bytes read in two's complement. -/
def signed (width n : Nat) : Int :=
  if 2 * n < count (8 * width) then n else (n : Int) - (count (8 * width) : Nat)

/-- The two's complement of an integer in `width` bytes. -/
def unsigned (width : Nat) (n : Int) : Nat :=
  (n % (count (8 * width) : Nat)).toNat

end SingingVoice.Word
