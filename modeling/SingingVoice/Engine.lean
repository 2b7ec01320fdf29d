import SingingVoice.Pitch
import SingingVoice.PitchShift
import SingingVoice.Render.Error
import SingingVoice.Voicebank.Loading
import SingingVoice.Yin

/-!
# Engines

An engine tunes the audio of samples and stretches vowels. The standard engine finds the pitch of a
sample by analysis, shifts it by the distance to the note that is asked for, and stretches with one
of the two modes of `Segment.stretch`.
-/

namespace SingingVoice

/-- What a renderer needs to be done to audio. -/
structure Engine (m : Type → Type) (α : Type) where
  /-- Prepares for rendering with a voicebank. -/
  setup : Voicebank α → ExceptT (RenderError α) m Unit
  /-- The audio of a sample, tuned to a note number. -/
  pitch : Voicebank α → Sample α → α → ExceptT (RenderError α) m (Segment α)
  /-- A vowel brought to a number of milliseconds. -/
  stretch : Segment α → α → Except (RenderError α) (Segment α)

namespace Engine

variable {α : Type} [Scalar α]

/-- The settings of the standard engine. -/
structure Settings (α : Type) where
  /-- The pitch analysis. -/
  yin : Yin α
  /-- The way to stretch. -/
  mode : StretchMode

/-- The settings with the pitch analysis for voices. -/
def Settings.ofMode (mode : StretchMode) : Settings α :=
  ⟨Yin.standard, mode⟩

variable [BitPattern α] [Resampler α] {m : Type → Type} [Monad m] [MonadStateOf FileTree m]
  [MonadStateOf (Loaded α) m]

/-- Loads the frequency maps of samples, so that missing ones are stored before they are needed.
Samples without audio are passed over; they fail only where a note uses them. -/
def loadMaps (analyzer : Analyzer α) (bank : Voicebank α) :
    List String → ExceptT (RenderError α) m Unit
  | [] => return ()
  | name :: rest => do
    let result ← ExceptT.lift (bank.loadMap analyzer name).run
    match result with
    | .ok _ | .error (.fileNotFound _) => loadMaps analyzer bank rest
    | .error error => throw (.voicebank error)

/-- Tunes the audio of a sample by the distance from its average pitch, as a whole note number, to
the target. Audio without a pitch stays as it is. -/
def tune (settings : Settings α) (bank : Voicebank α) (sample : Sample α) (target : α) :
    ExceptT (RenderError α) m (Segment α) := do
  let frq ← ExceptT.adapt .voicebank (bank.loadMap settings.yin.analyze sample.name)
  let audio ← ExceptT.adapt .voicebank (bank.loadAudio sample.name)
  if frq.average ≤ 0.0 then return audio
  let steps := target - Scalar.ofInt (Pitch.mk frq.average).noteNumber
  MonadExcept.ofExcept ((audio.pitchShift steps settings.mode).mapError .segment)

/-- The engine that analyses, shifts and stretches. -/
def standard (settings : Settings α) : Engine m α where
  setup bank := loadMaps settings.yin.analyze bank bank.names
  pitch := tune settings
  stretch vowel ms := .ok (vowel.stretch ms settings.mode)

end Engine

end SingingVoice
