import SingingVoice.Voicebank.Error

/-!
# Errors of rendering

The causes for which timelines and projects cannot be read or rendered, and their wording. An error
of a single note carries the index of the note around the cause.
-/

namespace SingingVoice

/-- Why the settings of a project are refused. -/
inductive ConfigFault (α : Type) where
  /-- The sample rate is zero. -/
  | zeroSampleRate
  /-- The number of workers is zero. -/
  | zeroWorkers
  /-- The crossfade is negative, infinite or not a number. -/
  | badCrossfade (crossfade : α)
  /-- Any other reason, in words. -/
  | other (reason : String)
deriving Repr

/-- The reason in words. -/
def ConfigFault.message {α : Type} [Numeral α] : ConfigFault α → String
  | zeroSampleRate => "sample_rate must be positive"
  | zeroWorkers => "workers must be positive"
  | badCrossfade crossfade =>
    "crossfade_ms must be a non-negative number, got " ++ Numeral.text crossfade
  | other reason => reason

/-- Why a track is refused. -/
inductive TrackFault where
  /-- There is a track with the same name. -/
  | duplicateName
  /-- Any other reason, in words. -/
  | other (reason : String)
deriving DecidableEq, Repr

/-- The reason in words. -/
def TrackFault.message : TrackFault → String
  | duplicateName => "duplicate track name"
  | other reason => reason

/-- Why a timeline or a project cannot be read or rendered. -/
inductive RenderError (α : Type) where
  /-- A note could not be rendered. -/
  | note (index : Nat) (error : RenderError α)
  /-- There is no note with the index. -/
  | noteOutOfRange (index length : Nat)
  /-- An operation on the voicebank failed. -/
  | voicebank (error : VoicebankError α)
  /-- An operation on audio failed. -/
  | segment (error : SegmentError α)
  /-- The engine failed, for a reason of its own. -/
  | engine (reason : String)
  /-- The settings are refused. -/
  | config (fault : ConfigFault α)
  /-- A track is refused. -/
  | track (name : String) (fault : TrackFault)
  /-- A file could not be accessed. -/
  | file (fault : FileFault)
  /-- The text of a project does not have the form of one. -/
  | malformed
deriving Repr

namespace RenderError

variable {α : Type}

/-- The error of the note with an index. -/
def atNote (index : Nat) (error : RenderError α) : RenderError α :=
  note index error

/-- The index of the note that the error is about. -/
def noteIndex? : RenderError α → Option Nat
  | note index _ => some index
  | _ => none

/-- The cause without the notes around it. -/
def root : RenderError α → RenderError α
  | note _ error => error.root
  | error => error

/-- Whether the timing of a sample or of an operation on audio is at fault. -/
def isTiming (error : RenderError α) : Bool :=
  match error.root with
  | voicebank error => error.isTiming
  | segment error => error.isTiming
  | _ => false

/-- The error in words. Errors in the form of a text leave the wording to its reader. -/
def message [Numeral α] : RenderError α → String
  | note index error => "note " ++ toString index ++ ": " ++ error.message
  | noteOutOfRange index length =>
    "note index " ++ toString index ++ " out of range for " ++ toString length ++ " notes"
  | voicebank error => error.message
  | segment error => error.message
  | engine reason => "engine error: " ++ reason
  | config fault => "invalid config: " ++ fault.message
  | track name fault => "track " ++ Quoted.encode name ++ ": " ++ fault.message
  | file _ => "io error"
  | malformed => "yaml error"

end RenderError

end SingingVoice
