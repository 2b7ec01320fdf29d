import SingingVoice.Decimal.Numeral
import SingingVoice.Text.Quoted
import SingingVoice.Wave.Fault

/-!
# Errors of segments

The causes for which operations on audio segments fail, and their wording.
-/

namespace SingingVoice

/-- Why a file could not be read or written. -/
inductive FileFault where
  /-- There is nothing at the path. -/
  | notFound
  /-- There is something, but it cannot be used as a file. -/
  | unusable
deriving DecidableEq, Repr

/-- Why an operation on segments failed. -/
inductive SegmentError (α : Type) where
  /-- Bytes could not be decoded. -/
  | decode (fault : Wave.Fault)
  /-- The bytes of a file could not be decoded. -/
  | decodeFile (path : String) (fault : Wave.Fault)
  /-- A segment could not be encoded. -/
  | encode (reason : String)
  /-- A crossfade is longer than one of the segments it joins. -/
  | crossfadeTooLong (crossfade : α) (length : Nat)
  /-- A fade would amplify. -/
  | positiveGain (gain : α)
  /-- A fade ends before it starts. -/
  | emptyWindow (start stop : α)
  /-- Audio has more channels than there are layouts for. -/
  | channels (count : Nat)
  /-- The sample rate could not be converted. -/
  | resample (reason : String)
  /-- A file could not be accessed. -/
  | file (fault : FileFault)
deriving Repr

namespace SegmentError

variable {α : Type}

/-- Whether the arguments of an operation did not fit in time. -/
def isTiming : SegmentError α → Bool
  | crossfadeTooLong .. | positiveGain _ | emptyWindow .. => true
  | _ => false

/-- The error in words. Errors of file access leave the wording to the system. -/
def message [Numeral α] : SegmentError α → String
  | decode fault => "failed to decode audio: " ++ fault.message
  | decodeFile path fault => "failed to decode " ++ Quoted.encode path ++ ": " ++ fault.message
  | encode reason => "failed to encode audio: " ++ reason
  | crossfadeTooLong crossfade length =>
    "crossfade of " ++ Numeral.text crossfade ++ "ms is longer than segment (" ++
      toString length ++ "ms)"
  | positiveGain gain => "gain must not be positive, got " ++ Numeral.text gain ++ "dB"
  | emptyWindow start stop =>
    "start must be earlier than end: " ++ Numeral.text start ++ "ms >= " ++
      Numeral.text stop ++ "ms"
  | channels count => "unsupported channel count: " ++ toString count
  | resample reason => "resample error: " ++ reason
  | file _ => "io error"

end SegmentError

end SingingVoice
