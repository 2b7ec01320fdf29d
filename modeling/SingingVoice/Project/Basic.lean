import SingingVoice.Project.File
import SingingVoice.Render.Basic

/-!
# Projects

A project has settings and any number of tracks with different names, in the order in which they
were added. All tracks are rendered with one voicebank and one engine, some of them at once, and are
mixed into one segment. Settings and projects are also read from files; the voicebank is then looked
for from the directory of the file.
-/

namespace SingingVoice

/-- Tracks that are rendered together. -/
structure Project (α : Type) where
  /-- The settings. -/
  config : Config α
  /-- The tracks, in the order in which they were added. -/
  tracks : List (Track α)
deriving BEq, DecidableEq, Repr

namespace Project

variable {α : Type}

/-- The project without tracks. -/
def ofConfig (config : Config α) : Project α :=
  ⟨config, []⟩

/-- The track with a name, if there is one. -/
def track? (project : Project α) (name : String) : Option (Track α) :=
  project.tracks.find? fun track => track.name = name

/-- Adds a track behind the others. Its name must be new. -/
def addTrack (project : Project α) (name : String) (notes : List (Note α)) :
    Except (RenderError α) (Project α) :=
  if (project.track? name).isSome then .error (.track name .duplicateName)
  else .ok { project with tracks := project.tracks ++ [⟨name, notes⟩] }

/-- The project of a file. -/
def ofFile (file : ProjectFile α) : Except (RenderError α) (Project α) :=
  file.tracks.foldlM (fun project track => project.addTrack track.name track.notes)
    (ofConfig file.config)

/-- The file of a project. -/
def toFile (project : Project α) : ProjectFile α :=
  .ofTracks project.config project.tracks

/-- How many tracks are rendered at once: as many as there are, but at least one and not more than
there are workers. -/
def parallelTracks (project : Project α) : Nat :=
  max 1 (min project.tracks.length (max project.config.workers.toNat 1))

/-- How many notes of a track are rendered at once: the workers are divided among the tracks. -/
def workersPerTrack (project : Project α) : Nat :=
  max (project.config.workers.toNat / project.parallelTracks) 1

variable {m : Type → Type} [Scalar α]

/-- The renderer for the tracks. -/
def renderer (project : Project α) (bank : Voicebank α) (engine : Engine m α) : Renderer m α :=
  ((Renderer.sequential bank engine project.config.format).withWorkers
    project.workersPerTrack).withCrossfade project.config.crossfade

/-- The notes of the track with an index. -/
def notesAt (project : Project α) (index : Nat) : List (Note α) :=
  (project.tracks[index]?.map Track.notes).getD []

variable [Resampler α] [Monad m]

/-- The audio of all tracks. The engine is prepared before any track is rendered. A schedule tells
the order in which the pool of tracks works, and one for each track that of its notes. -/
def renderTracks (project : Project α) (bank : Voicebank α) (engine : Engine m α)
    (schedule : WorkerPool.Schedule := WorkerPool.Schedule.first)
    (schedules : Nat → WorkerPool.Schedule := fun _ => WorkerPool.Schedule.first) :
    ExceptT (RenderError α) m (List (Segment α)) := do
  engine.setup bank
  let renderer := project.renderer bank engine
  WorkerPool.runIndexed project.tracks.length project.parallelTracks
    (fun index => renderer.render (project.notesAt index) (schedules index)) schedule

/-- All tracks mixed into one segment. -/
def render (project : Project α) (bank : Voicebank α) (engine : Engine m α)
    (schedule : WorkerPool.Schedule := WorkerPool.Schedule.first)
    (schedules : Nat → WorkerPool.Schedule := fun _ => WorkerPool.Schedule.first) :
    ExceptT (RenderError α) m (Segment α) := do
  let renders ← project.renderTracks bank engine schedule schedules
  MonadExcept.ofExcept ((Segment.mix project.config.format renders).mapError .segment)

variable [MonadStateOf FileTree m]

/-- Renders the project and writes the mix into a file. -/
def exportMix (project : Project α) (bank : Voicebank α) (engine : Engine m α) (path : String) :
    ExceptT (RenderError α) m (Segment α) := do
  let mix ← project.render bank engine
  ExceptT.adapt .segment (mix.toFile path)
  return mix

variable [Numeral α]

/-- Reads the voicebank of the project. -/
def openVoicebank (project : Project α) : ExceptT (RenderError α) m (Voicebank α) :=
  ExceptT.adapt .voicebank (Voicebank.ofDirectory project.config.voicebank)

/-- The text of a file. -/
def readText (path : String) : ExceptT (RenderError α) m String := do
  match ← FileAccess.read path with
  | .error fault => throw (.file fault)
  | .ok bytes =>
    match Utf8.decode? bytes with
    | some text => return text
    | none => throw (.file .unusable)

/-- Reads settings from a file. -/
def loadConfig (default : Config α) (path : String) : ExceptT (RenderError α) m (Config α) := do
  let config ← MonadExcept.ofExcept (Config.ofYaml default (← readText path))
  return config.resolvePaths path

/-- Reads a project from a file. -/
def load (default : Config α) (path : String) : ExceptT (RenderError α) m (Project α) := do
  let file ← MonadExcept.ofExcept (ProjectFile.ofYaml default (← readText path))
  MonadExcept.ofExcept (ofFile { file with config := file.config.resolvePaths path })

end Project

end SingingVoice
