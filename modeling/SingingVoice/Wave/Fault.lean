/-!
# Faults of wave files

The reasons for which bytes are refused as a wave file, and their wording.
-/

namespace SingingVoice.Wave

/-- Why bytes are not a readable wave file. -/
inductive Fault where
  /-- The first four bytes are not the container's tag. -/
  | noContainerTag
  /-- The container holds something else than a wave. -/
  | noWaveTag
  /-- The sample data comes before any description of its format. -/
  | missingFormat
  /-- The format description is too short. -/
  | shortFormat
  /-- The format description has a length that its encoding does not allow. -/
  | formatSize
  /-- The extension of a float format is not empty. -/
  | floatExtensionSize
  /-- The extension of an extensible format has the wrong length. -/
  | extensibleSize
  /-- There are no channels. -/
  | zeroChannels
  /-- A sample has more bits than its bytes hold. -/
  | sampleBits
  /-- The byte rate does not follow from the other fields. -/
  | inconsistentFormat
  /-- A sample's bits do not fill bytes. -/
  | partialByte
  /-- A sample has no bits. -/
  | zeroBits
  /-- An integer format with an extension has an unexpected sample width. -/
  | integerBits
  /-- A float format has samples of another width than 32 bits. -/
  | floatBits
  /-- The data ends inside a sample. -/
  | partialSample
  /-- The data ends inside a frame. -/
  | partialFrame
  /-- The encoding of the samples is not known. -/
  | unsupported
  /-- The samples are wider than can be represented. -/
  | tooWide
  /-- Any other reason, in words. -/
  | other (reason : String)
deriving DecidableEq, Repr

namespace Fault

/-- The part of the wording that names a defect of the file's structure. -/
def defect? : Fault → Option String
  | noContainerTag => some "no RIFF tag found"
  | noWaveTag => some "no WAVE tag found"
  | missingFormat => some "missing fmt chunk"
  | shortFormat => some "invalid fmt chunk size"
  | formatSize => some "unexpected fmt chunk size"
  | floatExtensionSize => some "unexpected WAVEFORMATEX size"
  | extensibleSize => some "unexpected WAVEFORMATEXTENSIBLE size"
  | zeroChannels => some "file contains zero channels"
  | sampleBits => some "sample bits exceeds size of sample"
  | inconsistentFormat => some "inconsistent fmt chunk"
  | partialByte => some "bits per sample is not a multiple of 8"
  | zeroBits => some "bits per sample is 0"
  | integerBits => some "bits per sample is not 8 or 16"
  | floatBits => some "bits per sample is not 32"
  | partialSample => some "data chunk length is not a multiple of sample size"
  | partialFrame => some "invalid data chunk length"
  | unsupported | tooWide | other _ => none

/-- The reason in words. -/
def message (fault : Fault) : String :=
  match fault.defect? with
  | some defect => "Ill-formed WAVE file: " ++ defect
  | none =>
    match fault with
    | unsupported => "The wave format of the file is not supported."
    | tooWide => "The sample has more bits than the destination type."
    | other reason => reason
    | _ => ""

end Fault

end SingingVoice.Wave
