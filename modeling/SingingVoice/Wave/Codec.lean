import SingingVoice.Segment.Basic
import SingingVoice.Segment.Error
import SingingVoice.Wave.Header

/-!
# Wave files

`Segment.toWave` is a segment as a wave file of 16-bit samples, which `Segment.writeWave` accepts if
the frames are whole, and `Segment.ofWave` reads the wave files it knows into a segment.
-/

namespace SingingVoice.Wave

variable {α : Type} [Scalar α]

/-- Reads one whole number. One-byte samples are counted from the middle of their range. -/
def readWhole (header : Header) : Reader Int := do
  match header.bytes, header.bits with
  | 1, 8 => return (← Reader.word 1 : Nat) - 128
  | 2, 16 => return Word.signed 2 (← Reader.word 2)
  | 3, 24 => return Word.signed 3 (← Reader.word 3)
  | 4, 24 => return Word.signed 3 ((← Reader.word 4) % Word.count 24)
  | 4, 32 => return Word.signed 4 (← Reader.word 4)
  | bytes, _ => Reader.fail (if 4 < bytes then .tooWide else .unsupported)

/-- Reads one whole number as a fraction of the full scale of its bits. -/
def readInteger (header : Header) : Reader α := do
  let scale := Word.count (max 1 (min header.bits 32) - 1)
  return Scalar.ofInt (← readWhole header) / Scalar.ofNat scale

/-- Reads one number in single precision. -/
def readFloat (header : Header) : Reader α := do
  match header.bytes, header.bits with
  | 4, 32 => return Scalar.ofSingle (UInt32.ofNat (← Reader.word 4))
  | bytes, _ => Reader.fail (if 4 < bytes then .tooWide else .unsupported)

/-- Reads so many samples behind those already read. -/
def readSamples (header : Header) : Nat → Array α → Reader (Array α)
  | 0, samples => return samples
  | count + 1, samples => do
    let x ← match header.encoding with
      | .integer => readInteger header
      | .float => readFloat header
    readSamples header count (samples.push x)

/-- A sample as a 16-bit number: cut to the range from -1 to 1 and scaled. -/
def quantize (x : α) : Int :=
  let bound : Int := Word.count 15
  Scalar.toIntIn (-bound) (bound - 1) (Scalar.round (Scalar.clamp (-1.0) 1.0 x * 32767.0))

end SingingVoice.Wave

namespace SingingVoice.Segment

variable {α : Type} [Scalar α]

/-- The error that stands for a reader that stopped. -/
def ofStop (stop : Wave.Stop) : SegmentError α :=
  match stop with
  | .ended => .file .unusable
  | .fault fault => .decode fault

/-- The segment that the bytes of a wave file hold. -/
def ofWave (bytes : List UInt8) : Except (SegmentError α) (Segment α) := do
  match Wave.Header.read bytes with
  | .error stop => throw (ofStop stop)
  | .ok ((header, count), rest) =>
    let some channels := Channels.ofCount? header.channels
      | throw (.channels header.channels)
    match Wave.readSamples header count #[] rest with
    | .error stop => throw (ofStop stop)
    | .ok (samples, _) => return ofSamples ⟨header.sampleRate, channels⟩ samples

/-- The bytes before the samples of a wave file of 16-bit samples. -/
def waveHeader (format : Format) (samples : Nat) : List UInt8 :=
  let frameBytes := 2 * format.frameSize
  "RIFF".toUTF8.toList ++ Word.bytes 4 (36 + 2 * samples) ++ "WAVE".toUTF8.toList ++
    "fmt ".toUTF8.toList ++ Word.bytes 4 16 ++ Word.bytes 2 1 ++
    Word.bytes 2 format.frameSize ++ Word.bytes 4 format.sampleRate ++
    Word.bytes 4 (format.sampleRate * frameBytes) ++ Word.bytes 2 frameBytes ++
    Word.bytes 2 16 ++ "data".toUTF8.toList ++ Word.bytes 4 (2 * samples)

/-- The segment as a wave file of 16-bit samples. -/
def toWave (segment : Segment α) : List UInt8 :=
  waveHeader segment.format segment.samples.size ++
    segment.samples.toList.flatMap fun x => Word.bytes 2 (Word.unsigned 2 (Wave.quantize x))

/-- The check behind the last sample of a wave file: samples that end inside a frame are refused,
but only after all of them are written. -/
def finishWave (segment : Segment α) : Except (SegmentError α) Unit :=
  if segment.samples.size % segment.format.frameSize = 0 then pure ()
  else throw (.encode "The number of samples written is not a multiple of the number of channels.")

/-- Writes the segment as a wave file of 16-bit samples. -/
def writeWave (segment : Segment α) : Except (SegmentError α) (List UInt8) := do
  segment.finishWave
  return segment.toWave

end SingingVoice.Segment
