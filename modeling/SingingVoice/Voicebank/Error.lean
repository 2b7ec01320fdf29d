import SingingVoice.Frq.Codec
import SingingVoice.Segment.Error

/-!
# Errors of voicebanks

The causes for which reading pitches, sample records and frequency maps, and cutting samples, can
fail, and their wording.
-/

namespace SingingVoice

/-- The numbers of a sample record, in their order. -/
inductive Sample.Field where
  | offset
  | consonant
  | cutoff
  | preutterance
  | overlap
deriving DecidableEq, Repr

/-- The name of a number in messages. -/
def Sample.Field.name : Sample.Field → String
  | offset => "offset"
  | consonant => "consonant"
  | cutoff => "cutoff"
  | preutterance => "preutterance"
  | overlap => "overlap"

/-- Why a line of text is refused. -/
inductive EntryFault where
  /-- A record has no equals sign. -/
  | noEquals
  /-- The file name of a record is blank. -/
  | emptyFile
  /-- A record ends before one of its numbers. -/
  | missing (field : Sample.Field)
  /-- The text in place of a number is not one. -/
  | notNumber (field : Sample.Field) (text : String)
  /-- A record goes on after its last number. -/
  | tooManyFields
  /-- The text is not a pitch. -/
  | notPitch
  /-- Any other reason, in words. -/
  | other (reason : String)
deriving DecidableEq, Repr

/-- The reason in words. -/
def EntryFault.message : EntryFault → String
  | noEquals => "expected file=alias,..."
  | emptyFile => "empty file name"
  | missing field => "missing " ++ field.name
  | notNumber field text => field.name ++ " is not a number: " ++ Quoted.encode text
  | tooManyFields => "too many fields"
  | notPitch => "invalid scientific pitch notation"
  | other reason => reason

/-- Why a sample cannot be cut out of its audio. -/
inductive TimingFault (α : Type) where
  /-- The offset is negative. -/
  | negativeOffset (offset : α)
  /-- The consonant is negative. -/
  | negativeConsonant (consonant : α)
  /-- Nothing is left of the vowel in audio of so many milliseconds. -/
  | emptyVowel (start stop : α) (length : Nat)
  /-- Any other reason, in words. -/
  | other (reason : String)
deriving Repr

/-- The reason in words. -/
def TimingFault.message {α : Type} [Numeral α] : TimingFault α → String
  | negativeOffset offset => "negative offset " ++ Numeral.text offset
  | negativeConsonant consonant => "negative consonant " ++ Numeral.text consonant
  | emptyVowel start stop length =>
    "empty vowel region [" ++ Numeral.text start ++ "ms, " ++ Numeral.text stop ++ "ms) in " ++
      toString length ++ "ms of audio"
  | other reason => reason

/-- Why a pitch analysis is refused. -/
inductive AnalysisFault (α : Type) where
  /-- The range of frequencies to look in is empty. -/
  | emptyRange (low high : α)
  /-- Any other reason, in words. -/
  | other (reason : String)
deriving Repr

/-- The reason in words. -/
def AnalysisFault.message {α : Type} [Numeral α] : AnalysisFault α → String
  | emptyRange low high =>
    "invalid frequency range " ++ Numeral.text low ++ ".." ++ Numeral.text high ++ "Hz"
  | other reason => reason

/-- Why an operation on a voicebank failed. -/
inductive VoicebankError (α : Type) where
  /-- A line of text cannot be read. Line zero stands for text that is no line of a file. -/
  | parse (line : Nat) (entry : String) (fault : EntryFault)
  /-- Bytes are not a frequency map. -/
  | format (fault : Frq.Fault)
  /-- There is no sample with the alias. -/
  | notFound (name : String)
  /-- There is no file at the path. -/
  | fileNotFound (path : String)
  /-- A sample's numbers do not fit its audio. -/
  | timing (name : String) (fault : TimingFault α)
  /-- The pitch of a sample cannot be analysed. -/
  | analysis (fault : AnalysisFault α)
  /-- An operation on audio failed. -/
  | segment (error : SegmentError α)
  /-- A file could not be accessed. -/
  | file (fault : FileFault)
deriving Repr

namespace VoicebankError

variable {α : Type}

/-- The same error with its line set, if it is about a line of text. -/
def atLine (line : Nat) : VoicebankError α → VoicebankError α
  | parse _ entry fault => parse line entry fault
  | error => error

/-- Whether the timing of a sample or of an operation on audio is at fault. -/
def isTiming : VoicebankError α → Bool
  | timing .. => true
  | segment error => error.isTiming
  | _ => false

/-- The error in words. -/
def message [Numeral α] : VoicebankError α → String
  | parse line entry fault =>
    "line " ++ toString line ++ ": invalid entry " ++ Quoted.encode entry ++ ": " ++ fault.message
  | format fault => "invalid frq data: " ++ fault.message
  | notFound name => "alias " ++ Quoted.encode name ++ " not found in voicebank"
  | fileNotFound path => "file not found: " ++ Quoted.encode path
  | timing name fault => "sample " ++ Quoted.encode name ++ ": " ++ fault.message
  | analysis fault => "pitch analysis failed: " ++ fault.message
  | segment error => error.message
  | file _ => "io error"

end VoicebankError

end SingingVoice
