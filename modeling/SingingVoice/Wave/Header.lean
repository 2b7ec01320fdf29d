import SingingVoice.Wave.Fault
import SingingVoice.Word

/-!
# Headers of wave files

A wave file is a container of chunks. `Wave.Header.read` looks for the chunk that describes the
samples and for the one that holds them, checks the description, and leaves the bytes from the first
sample on.
-/

namespace SingingVoice.Wave

/-- Why reading bytes stopped. -/
inductive Stop where
  /-- The bytes ended too early. -/
  | ended
  /-- What the bytes say cannot be right. -/
  | fault (fault : Fault)
deriving DecidableEq, Repr

/-- Readers of bytes: what is read comes off the front. -/
abbrev Reader := StateT (List UInt8) (Except Stop)

namespace Reader

/-- Reads so many bytes. -/
def take (count : Nat) : Reader (List UInt8) := fun bytes =>
  let taken := bytes.take count
  if taken.length = count then .ok (taken, bytes.drop count) else .error .ended

/-- Reads an unsigned word of so many bytes. -/
def word (width : Nat) : Reader Nat := do
  return Word.ofBytes (← take width)

/-- Stops with a fault. -/
def fail {β : Type} (fault : Fault) : Reader β :=
  throw (.fault fault)

/-- Stops with a fault if a condition does not hold. -/
def check (condition : Bool) (fault : Fault) : Reader Unit :=
  if condition then pure () else fail fault

end Reader

/-- How samples are written. -/
inductive Encoding where
  /-- Whole numbers. -/
  | integer
  /-- Numbers in single precision. -/
  | float
deriving DecidableEq, Repr

/-- What the header of a wave file says about its samples. -/
structure Header where
  /-- How samples are written. -/
  encoding : Encoding
  /-- The number of channels. -/
  channels : Nat
  /-- Frames per second. -/
  sampleRate : Nat
  /-- The bytes that a sample takes. -/
  bytes : Nat
  /-- The bits of a sample that count. -/
  bits : Nat
deriving DecidableEq, Repr

namespace Header

open Reader

/-- Reads the rest of the description of plain integer samples, `size` bytes long in all. -/
def readInteger (size : Nat) (header : Header) : Reader Header := do
  check (size = 16 ∨ size = 18 ∨ size = 40) .formatSize
  if size ≠ 16 then
    let _ ← take 2
    check (header.bits = 8 ∨ header.bits = 16 ∨ header.bits = 24) .integerBits
  if size = 40 then
    let _ ← take 22
  return header

/-- Reads the rest of the description of plain float samples, `size` bytes long in all. -/
def readFloat (size : Nat) (header : Header) : Reader Header := do
  check (size = 16 ∨ size = 18) .formatSize
  if size = 18 then
    check ((← word 2) = 0) .floatExtensionSize
  check (header.bits = 32) .floatBits
  return { header with encoding := .float }

/-- The identifier of integer samples in an extensible description. -/
def integerIdentifier : List UInt8 :=
  [0x01, 0, 0, 0, 0, 0, 0x10, 0, 0x80, 0, 0, 0xaa, 0, 0x38, 0x9b, 0x71]

/-- The identifier of float samples in an extensible description. -/
def floatIdentifier : List UInt8 :=
  [0x03, 0, 0, 0, 0, 0, 0x10, 0, 0x80, 0, 0, 0xaa, 0, 0x38, 0x9b, 0x71]

/-- Reads the rest of an extensible description, `size` bytes long in all. A width of valid bits
that is not zero replaces the width given before. -/
def readExtensible (size : Nat) (header : Header) : Reader Header := do
  check (40 ≤ size) .formatSize
  check ((← word 2) = 22) .extensibleSize
  let valid ← word 2
  let _ ← take 4
  let identifier ← take 16
  let bits := if valid = 0 then header.bits else valid
  if identifier = integerIdentifier then return { header with bits }
  else if identifier = floatIdentifier then return { header with bits, encoding := .float }
  else fail .unsupported

/-- Reads a format description of `size` bytes. -/
def readFormat (size : Nat) : Reader Header := do
  check (16 ≤ size) .shortFormat
  let tag ← word 2
  let channels ← word 2
  let sampleRate ← word 4
  let byteRate ← word 4
  let frameBytes ← word 2
  let bits ← word 2
  check (channels ≠ 0) .zeroChannels
  let bytes := frameBytes / channels
  check (8 * bytes < Word.count 16 ∧ bits ≤ 8 * bytes) .sampleBits
  check (byteRate = frameBytes * sampleRate) .inconsistentFormat
  check (bits % 8 = 0) .partialByte
  check (bits ≠ 0) .zeroBits
  let header : Header := ⟨.integer, channels, sampleRate, bytes, bits⟩
  if tag = 1 then readInteger size header
  else if tag = 3 then readFloat size header
  else if tag = 0xfffe then readExtensible size header
  else fail .unsupported

/-- Reads chunks up to the one that holds the samples: the last description before it, and its size.
Every chunk takes at least the eight bytes of its head, so the length of the input bounds the number
of chunks. -/
def readChunks : Nat → Option Header → Reader (Header × Nat)
  | 0, _ => throw .ended
  | fuel + 1, header? => do
    let tag ← take 4
    let size ← word 4
    if tag = "data".toUTF8.toList then
      match header? with
      | some header => return (header, size)
      | none => fail .missingFormat
    else if tag = "fmt ".toUTF8.toList then
      let header ← readFormat size
      readChunks fuel (some header)
    else if tag = "fact".toUTF8.toList then
      modify (·.drop 4)
      readChunks fuel header?
    else
      let _ ← take size
      readChunks fuel header?

/-- Reads the head of a wave file, up to the first sample: the description of the samples, and how
many of them there are. -/
def read : Reader (Header × Nat) := do
  check ((← take 4) = "RIFF".toUTF8.toList) .noContainerTag
  let _ ← take 4
  check ((← take 4) = "WAVE".toUTF8.toList) .noWaveTag
  let fuel := (← get).length + 1
  let (header, size) ← readChunks fuel none
  let count := size / header.bytes
  check (count * header.bytes = size) .partialSample
  check (count % header.channels = 0) .partialFrame
  return (header, count)

end Header

end SingingVoice.Wave
