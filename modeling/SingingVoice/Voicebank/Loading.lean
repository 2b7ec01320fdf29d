import SingingVoice.Cache
import SingingVoice.Segment.File
import SingingVoice.Voicebank.Basic

/-!
# Loading from a voicebank

`Voicebank.ofDirectory` reads the samples of a directory. Their audio and their frequency maps are
loaded when they are asked for, and are kept: `Voicebank.loadAudio` decodes the audio of an alias
once, and `Voicebank.loadMap` reads the frequency map that is stored beside the audio or, if there
is none, analyses the audio and stores the result. A map that cannot be stored is no failure.
-/

namespace SingingVoice

/-- What has been loaded from a voicebank. -/
structure Loaded (α : Type) where
  /-- The audio of aliases. -/
  audio : Cache (Segment α)
  /-- The frequency maps of aliases. -/
  maps : Cache (Frq α)
  /-- The paths of the audio that has been analysed, the latest first. -/
  analysed : List String

/-- A pitch analysis. -/
abbrev Analyzer (α : Type) :=
  Segment α → Except (VoicebankError α) (Frq α)

namespace Loaded

variable {α : Type}

/-- Nothing has been loaded. -/
def empty : Loaded α :=
  ⟨.empty, .empty, []⟩

variable {m : Type → Type} [MonadStateOf (Loaded α) m]

/-- One operation on the cache of audio. -/
def stepAudio {β : Type} (f : Cache (Segment α) → β × Cache (Segment α)) : m β :=
  modifyGetThe (Loaded α) fun loaded =>
    let (value, audio) := f loaded.audio
    (value, { loaded with audio })

/-- One operation on the cache of frequency maps. -/
def stepMaps {β : Type} (f : Cache (Frq α) → β × Cache (Frq α)) : m β :=
  modifyGetThe (Loaded α) fun loaded =>
    let (value, maps) := f loaded.maps
    (value, { loaded with maps })

/-- Notes that the audio at a path is analysed. -/
def noteAnalysis (α : Type) [MonadStateOf (Loaded α) m] (path : String) : m Unit :=
  modifyGetThe (Loaded α) fun loaded => ((), { loaded with analysed := path :: loaded.analysed })

end Loaded

namespace Voicebank

variable {α : Type} {m : Type → Type} [Monad m] [MonadStateOf FileTree m]

/-- The error of a file that cannot be read. -/
def ofFileFault (path : String) : FileFault → VoicebankError α
  | .notFound => .fileNotFound path
  | .unusable => .file .unusable

/-- Reads the voicebank in a directory. Bytes of its configuration that are no text are replaced. -/
def ofDirectory [Numeral α] (dir : String) : ExceptT (VoicebankError α) m (Voicebank α) := do
  let path := Path.join dir configFile
  match ← FileAccess.read path with
  | .error fault => throw (ofFileFault path fault)
  | .ok bytes =>
    let samples ← MonadExcept.ofExcept (parseConfig (String.ofList (Utf8.decodeLossy bytes)))
    return ofSamples dir samples

/-- Fails on the first path that leads to no file. -/
def checkFiles : List String → ExceptT (VoicebankError α) m Unit
  | [] => return ()
  | path :: rest => do
    if ← FileAccess.isFile path then checkFiles rest else throw (.fileNotFound path)

/-- Reads the voicebank in a directory and checks that the audio of every sample is there. -/
def ofDirectoryChecked [Numeral α] (dir : String) :
    ExceptT (VoicebankError α) m (Voicebank α) := do
  let bank ← ofDirectory dir
  checkFiles (bank.samples.toList.map bank.audioPath)
  return bank

variable [MonadStateOf (Loaded α) m]

/-- The error of audio that cannot be loaded from a path. -/
def ofAudioError (path : String) : SegmentError α → VoicebankError α
  | .file .notFound => .fileNotFound path
  | error => .segment error

/-- The audio of an alias, decoded once. -/
def loadAudio [Scalar α] (bank : Voicebank α) (name : String) :
    ExceptT (VoicebankError α) m (Segment α) := do
  let path ← MonadExcept.ofExcept (bank.pathTo name)
  Cache.getOrFill Loaded.stepAudio name (ExceptT.adapt (ofAudioError path) (Segment.ofFile path))

variable [BitPattern α]

/-- Reads the frequency map in the file at a path. -/
def readMap (path : String) : ExceptT (VoicebankError α) m (Frq α) := do
  match ← FileAccess.read path with
  | .error fault => throw (.file fault)
  | .ok bytes => MonadExcept.ofExcept ((Frq.ofBytes bytes).mapError .format)

/-- The frequency map of an alias from the analysis of its audio, which is stored at a path. -/
def analyzeMap [Scalar α] (bank : Voicebank α) (analyzer : Analyzer α) (name path : String) :
    ExceptT (VoicebankError α) m (Frq α) := do
  let audio ← bank.loadAudio name
  Loaded.noteAnalysis α ((bank.pathTo name).toOption.getD name)
  let frq ← MonadExcept.ofExcept (analyzer audio)
  let _ ← FileAccess.write path frq.toBytes
  return frq

/-- The frequency map of an alias: the one that has been loaded before, the one that is stored
beside the audio, or else a new analysis. -/
def loadMap [Scalar α] (bank : Voicebank α) (analyzer : Analyzer α) (name : String) :
    ExceptT (VoicebankError α) m (Frq α) := do
  let path ← MonadExcept.ofExcept (bank.mapPathTo name)
  Cache.getOrFill Loaded.stepMaps name do
    if ← FileAccess.isFile path then readMap path else bank.analyzeMap analyzer name path

/-- Forgets all audio and all frequency maps. -/
def teardown (α : Type) [MonadStateOf (Loaded α) m] : m Unit :=
  modifyGetThe (Loaded α) fun loaded =>
    ((), { loaded with audio := loaded.audio.clear, maps := loaded.maps.clear })

end Voicebank

end SingingVoice
