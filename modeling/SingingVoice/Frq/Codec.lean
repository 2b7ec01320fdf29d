import SingingVoice.Double
import SingingVoice.Frq.Basic
import SingingVoice.Text.Quoted
import SingingVoice.Text.Utf8
import SingingVoice.Word

/-!
# Frequency maps in bytes

The file form of a frequency map has a header of forty bytes and sixteen bytes for each frame. All
numbers have their least significant byte first. The header holds the magic `FREQ0003`, the hop, the
average, sixteen reserved bytes and the number of frames.

`Frq.encode` and `Frq.decode` work on bit patterns, so they are exact inverses also where a pattern
is not a number. `Frq.toBytes` and `Frq.ofBytes` go through the patterns of a type of numbers.
-/

namespace SingingVoice

/-- A type of numbers that are stored as patterns of 64 bits. -/
class BitPattern (α : Type) where
  /-- The pattern of a number. -/
  toBits : α → UInt64
  /-- The number that a pattern stands for. -/
  ofBits : UInt64 → α

instance : BitPattern Double where
  toBits := Double.bits
  ofBits := Double.mk

namespace Frq

/-- Why bytes are not a frequency map. -/
inductive Fault where
  /-- There are fewer bytes than a header has. -/
  | truncatedHeader (size : Nat)
  /-- The first bytes are not the magic. -/
  | badMagic (found : List UInt8)
  /-- The number of frames is negative. -/
  | negativeCount (count : Int)
  /-- There are fewer bytes than the frames need. -/
  | truncatedFrames (count size : Nat)
  /-- Any other reason, in words. -/
  | other (reason : String)
deriving DecidableEq, Repr

/-- The bytes that a frequency map starts with. -/
def magic : List UInt8 :=
  "FREQ0003".toUTF8.toList

/-- The size of the header in bytes. -/
def headerSize : Nat :=
  40

/-- The size of a frame in bytes. -/
def frameSize : Nat :=
  16

/-- The number of reserved bytes in the header. -/
def reservedSize : Nat :=
  16

/-- The reason in words. -/
def Fault.message : Fault → String
  | truncatedHeader size =>
    "truncated header: " ++ toString size ++ " bytes, need " ++ toString headerSize
  | badMagic found => "bad magic " ++ Quoted.encode (String.ofList (Utf8.decodeLossy found))
  | negativeCount count => "negative frame count " ++ toString count
  | truncatedFrames count size =>
    "truncated frames: " ++ toString count ++ " declared, " ++ toString size ++
      " bytes of frame data"
  | other reason => reason

/-- The bytes of a frame. -/
def encodeFrame (frame : Frame UInt64) : List UInt8 :=
  Word.bytes 8 frame.frequency.toNat ++ Word.bytes 8 frame.amplitude.toNat

/-- The bytes of a frequency map. -/
def encode (frq : Frq UInt64) : List UInt8 :=
  magic ++ Word.bytes 4 frq.hop.toUInt32.toNat ++ Word.bytes 8 frq.average.toNat ++
    List.replicate reservedSize 0 ++ Word.bytes 4 frq.frames.length ++
    frq.frames.flatMap encodeFrame

/-- The number in the `width` bytes from `start` on. -/
def wordAt (bytes : List UInt8) (start width : Nat) : Nat :=
  Word.ofBytes ((bytes.drop start).take width)

/-- The frames that bytes hold. -/
def decodeFrames : Nat → List UInt8 → List (Frame UInt64)
  | 0, _ => []
  | count + 1, bytes =>
    ⟨UInt64.ofNat (wordAt bytes 0 8), UInt64.ofNat (wordAt bytes 8 8)⟩ ::
      decodeFrames count (bytes.drop frameSize)

/-- The frequency map that bytes hold. Bytes after the last frame are ignored. -/
def decode (bytes : List UInt8) : Except Fault (Frq UInt64) := do
  if bytes.length < headerSize then throw (.truncatedHeader bytes.length)
  if bytes.take magic.length ≠ magic then throw (.badMagic (bytes.take magic.length))
  let count := Word.signed 4 (wordAt bytes 36 4)
  if count < 0 then throw (.negativeCount count)
  let body := bytes.drop headerSize
  if body.length < count.toNat * frameSize then
    throw (.truncatedFrames count.toNat body.length)
  return {
    hop := (UInt32.ofNat (wordAt bytes 8 4)).toInt32
    average := UInt64.ofNat (wordAt bytes 12 8)
    frames := decodeFrames count.toNat body }

variable {α : Type} [BitPattern α]

/-- The bytes of a frequency map of numbers. -/
def toBytes (frq : Frq α) : List UInt8 :=
  encode (frq.map BitPattern.toBits)

/-- The frequency map of numbers that bytes hold. -/
def ofBytes (bytes : List UInt8) : Except Fault (Frq α) :=
  (decode bytes).map (Frq.map BitPattern.ofBits)

end Frq

end SingingVoice
