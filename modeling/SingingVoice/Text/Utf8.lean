/-!
# Text from bytes

`Utf8.decodeLossy` reads bytes as UTF-8 and never fails: each maximal piece that starts a character
but does not finish it, and each byte that can start none, becomes one replacement character. The
reader keeps the character under way as its state, so it is a fold over the bytes.
-/

namespace SingingVoice.Utf8

/-- The character that stands for bytes that are not text. -/
def replacement : Char :=
  '\uFFFD'

/-- A character whose first bytes have been read: the bits so far, how many bytes are missing, and
the range that the next byte must lie in. -/
structure Pending where
  bits : Nat
  missing : Nat
  low : Nat
  high : Nat

/-- What a first byte past ASCII announces, if it can start a character. The ranges rule out
overlong forms, surrogates and code points that are too large. -/
def announce? (b : Nat) : Option Pending :=
  if 0xc2 ≤ b ∧ b ≤ 0xdf then some ⟨b % 0x20, 1, 0x80, 0xbf⟩
  else if b = 0xe0 then some ⟨0, 2, 0xa0, 0xbf⟩
  else if b = 0xed then some ⟨0xd, 2, 0x80, 0x9f⟩
  else if 0xe1 ≤ b ∧ b ≤ 0xef then some ⟨b % 0x10, 2, 0x80, 0xbf⟩
  else if b = 0xf0 then some ⟨0, 3, 0x90, 0xbf⟩
  else if 0xf1 ≤ b ∧ b ≤ 0xf3 then some ⟨b % 0x8, 3, 0x80, 0xbf⟩
  else if b = 0xf4 then some ⟨4, 3, 0x80, 0x8f⟩
  else none

/-- Reads a byte where a character may start. -/
def start (b : Nat) : List Char × Option Pending :=
  if b < 0x80 then ([Char.ofNat b], none)
  else
    match announce? b with
    | some pending => ([], some pending)
    | none => ([replacement], none)

/-- Reads one byte: the characters it settles, and the character then under way. -/
def step (pending? : Option Pending) (b : Nat) : List Char × Option Pending :=
  match pending? with
  | none => start b
  | some ⟨bits, missing, low, high⟩ =>
    if low ≤ b ∧ b ≤ high then
      let bits := bits * 0x40 + b % 0x40
      if missing = 1 then ([Char.ofNat bits], none)
      else ([], some ⟨bits, missing - 1, 0x80, 0xbf⟩)
    else
      let (settled, next) := start b
      (replacement :: settled, next)

/-- The characters of a list of bytes. -/
def decodeLossy (bytes : List UInt8) : List Char :=
  go none bytes
where
  /-- Reads the remaining bytes with a character possibly under way. -/
  go (pending? : Option Pending) : List UInt8 → List Char
    | [] => if pending?.isSome then [replacement] else []
    | b :: rest =>
      let (settled, next) := step pending? b.toNat
      settled ++ go next rest

/-- The text of a list of bytes, if they are UTF-8. -/
def decode? (bytes : List UInt8) : Option String :=
  String.fromUTF8? (ByteArray.mk bytes.toArray)

/-- The bytes of a text. -/
def encode (text : String) : List UInt8 :=
  text.toUTF8.toList

end SingingVoice.Utf8
