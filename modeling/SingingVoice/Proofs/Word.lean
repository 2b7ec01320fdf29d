import Mathlib
import SingingVoice.Word

/-!
# Laws of words

A number that fits into its bytes is read back from them (`ofBytes_bytes_of_lt`), and bytes are
written again from the number they stand for (`bytes_ofBytes`). A number read in two's complement
is negative exactly if it lies in the upper half of its range, and an integer is read back from its
two's complement (`signed_unsigned`).
-/

namespace SingingVoice.Word

/-- There is a word for every choice of its bits. -/
theorem count_eq (bits : Nat) : count bits = 2 ^ bits := by
  rw [count, Nat.pow_eq]

/-- A word has as many bytes as it is wide. -/
@[simp] theorem length_bytes (width n : Nat) : (bytes width n).length = width := by
  induction width generalizing n with
  | zero => rfl
  | succ width ih => rw [bytes, List.length_cons, ih]

/-- The bytes of a number stand for its low part. -/
theorem ofBytes_bytes (width n : Nat) : ofBytes (bytes width n) = n % 256 ^ width := by
  induction width generalizing n with
  | zero => rw [bytes, ofBytes, Nat.pow_zero, Nat.mod_one]
  | succ width ih =>
      have hlow : (UInt8.ofNat (n % 256)).toNat = n % 256 := by
        rw [UInt8.toNat_ofNat']
        omega
      rw [bytes, ofBytes, ih, hlow, Nat.pow_succ', Nat.mod_mul]

/-- A number that fits is read back from its bytes. -/
theorem ofBytes_bytes_of_lt {width n : Nat} (h : n < 256 ^ width) :
    ofBytes (bytes width n) = n := by
  rw [ofBytes_bytes, Nat.mod_eq_of_lt h]

/-- Bytes stand for a number below the count of words of their width. -/
theorem ofBytes_lt (octets : List UInt8) : ofBytes octets < 256 ^ octets.length := by
  induction octets with
  | nil => exact Nat.one_pos
  | cons octet octets ih =>
      have hoctet : octet.toNat < 256 := octet.toNat_lt
      rw [ofBytes, List.length_cons, Nat.pow_succ]
      omega

/-- Bytes are written again from the number they stand for. -/
theorem bytes_ofBytes (octets : List UInt8) : bytes octets.length (ofBytes octets) = octets := by
  induction octets with
  | nil => rfl
  | cons octet octets ih =>
      have hoctet : octet.toNat < 256 := octet.toNat_lt
      have hlow : (octet.toNat + 256 * ofBytes octets) % 256 = octet.toNat := by omega
      have hhigh : (octet.toNat + 256 * ofBytes octets) / 256 = ofBytes octets := by omega
      rw [List.length_cons, ofBytes, bytes, hlow, hhigh, ih, UInt8.ofNat_toNat]

/-- A number in the lower half of its range is read as it is. -/
theorem signed_of_lt {width n : Nat} (h : 2 * n < count (8 * width)) : signed width n = n :=
  if_pos h

/-- A number read in two's complement is not negative exactly if it lies in the lower half of its
range. -/
theorem signed_nonneg_iff {width n : Nat} (h : n < count (8 * width)) :
    0 ≤ signed width n ↔ 2 * n < count (8 * width) := by
  unfold signed
  split <;> omega

/-- So many bits are so many bytes. -/
theorem count_bytes (width : Nat) : count (8 * width) = 256 ^ width :=
  Nat.pow_mul 2 8 width

/-- The two's complement of an integer fits into its bytes. -/
theorem unsigned_lt (width : Nat) (n : Int) : unsigned width n < 256 ^ width := by
  have hpos : 0 < count (8 * width) := by
    rw [count_bytes]
    exact Nat.pow_pos (by decide)
  have hmod : n % (count (8 * width) : Nat) < (count (8 * width) : Nat) :=
    Int.emod_lt_of_pos n (by omega)
  rw [← count_bytes, unsigned]
  omega

/-- An integer in the range of its bytes is read back from its two's complement. -/
theorem signed_unsigned {width : Nat} {n : Int} (hlow : -(count (8 * width) : Int) ≤ 2 * n)
    (hhigh : 2 * n < count (8 * width)) : signed width (unsigned width n) = n := by
  rcases Int.lt_or_le n 0 with hneg | hnonneg
  · have hmod : n % (count (8 * width) : Nat) = n + (count (8 * width) : Nat) := by
      rw [← Int.add_emod_right, Int.emod_eq_of_lt (by omega) (by omega)]
    rw [unsigned, hmod, signed, if_neg (by omega)]
    omega
  · have hmod : n % (count (8 * width) : Nat) = n := Int.emod_eq_of_lt hnonneg (by omega)
    rw [unsigned, hmod, signed_of_lt (by omega)]
    omega

end SingingVoice.Word
