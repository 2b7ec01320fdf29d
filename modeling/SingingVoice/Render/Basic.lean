import SingingVoice.Engine
import SingingVoice.Note.Basic
import SingingVoice.Segment.Join
import SingingVoice.WorkerPool

/-!
# Rendering

A renderer turns a timeline of notes into audio in two passes. First every note is rendered for
itself (`Renderer.renderNote`): its sample is tuned and cut into consonant and vowel, and the vowel
is stretched, or the whole is cut off, to fit the note. How long a note lasts depends on the timing
of the note after it, but on nothing that has been rendered before, so a pool of workers does this
pass. Then the renders are spliced in order (`Renderer.splice`), each one reaching back into the end
of the one before by the overlap of the note after it.
-/

namespace SingingVoice

/-- The timing of a sung note. -/
structure Timing (α : Type) where
  /-- How long before its note the sample starts. -/
  preutterance : α
  /-- How far the sample blends into the note before. -/
  overlap : α
deriving BEq, Repr

/-- All that is fixed while timelines are rendered. -/
structure Renderer (m : Type → Type) (α : Type) where
  /-- The voicebank to sing with. -/
  bank : Voicebank α
  /-- The engine. -/
  engine : Engine m α
  /-- The format of the result. -/
  format : Format
  /-- How many notes are rendered at once. -/
  workers : Nat
  /-- The time over which a consonant blends into its vowel, in milliseconds. -/
  crossfade : α

namespace Renderer

variable {m : Type → Type} {α : Type} [Scalar α]

/-- The renderer that renders one note after another and does not blend. -/
def sequential (bank : Voicebank α) (engine : Engine m α) (format : Format) : Renderer m α :=
  ⟨bank, engine, format, 1, 0.0⟩

/-- The renderer with a number of workers, at least one. -/
def withWorkers (renderer : Renderer m α) (workers : Nat) : Renderer m α :=
  { renderer with workers := max workers 1 }

/-- The renderer with a crossfade. One that is negative or not a number counts as zero. -/
def withCrossfade (renderer : Renderer m α) (ms : α) : Renderer m α :=
  { renderer with crossfade := Scalar.max ms 0.0 }

/-- Prepares the engine for the voicebank. -/
def setup (renderer : Renderer m α) : ExceptT (RenderError α) m Unit :=
  renderer.engine.setup renderer.bank

/-- The timing of a note: what the note gives itself, and the rest from its sample. There is none
for rests and for notes that leave open what no sample says. -/
def timing? (renderer : Renderer m α) : Note α → Option (Timing α)
  | .rest _ => none
  | .sung name _ _ preutterance overlap => do
    let sample? := renderer.bank.find? name
    let preutterance ← preutterance <|> sample?.map Sample.preutterance
    let overlap ← overlap <|> sample?.map Sample.overlap
    return { preutterance, overlap }

/-- The timing of the note after the one with an index. -/
def nextTiming? (renderer : Renderer m α) (notes : List (Note α)) (index : Nat) :
    Option (Timing α) :=
  notes[index + 1]?.bind renderer.timing?

/-- The note with an index. -/
def noteAt (notes : List (Note α)) (index : Nat) : Except (RenderError α) (Note α) :=
  match notes[index]? with
  | some note => .ok note
  | none => .error (.noteOutOfRange index notes.length)

/-- The sample of an alias. -/
def sampleOf (renderer : Renderer m α) (name : String) : Except (RenderError α) (Sample α) :=
  (renderer.bank.get name).mapError .voicebank

/-- How long a note must sound: from its preutterance through its duration, changed by how much
the next note's overlap exceeds its preutterance. A rest lasts its duration. -/
def actualDuration (renderer : Renderer m α) (notes : List (Note α)) (index : Nat) :
    Except (RenderError α) α := do
  let note ← noteAt notes index
  match renderer.timing? note with
  | some own =>
    let lookahead := (renderer.nextTiming? notes index).elim (0.0 : α) fun next =>
      next.overlap - next.preutterance
    return own.preutterance + note.duration + lookahead
  | none =>
    if let some name := note.name? then let _ ← renderer.sampleOf name
    return note.duration

/-- Joins a consonant and a vowel to a note of the given duration that must sound for `actual`
milliseconds. If the two last longer than that, they are cut off after the duration, else the vowel
is stretched; it is stretched further by the crossfade, which takes as much away. -/
def fit (renderer : Renderer m α) (consonant vowel : Segment α) (duration actual : α)
    [Resampler α] : Except (RenderError α) (Segment α) := do
  let natural := consonant.duration + vowel.duration
  if actual < natural then
    let joined ← (consonant.append vowel renderer.crossfade).mapError .segment
    return joined.slice none (some duration)
  else
    let target := actual - consonant.duration + renderer.crossfade
    let stretched ← renderer.engine.stretch vowel target
    (consonant.append stretched renderer.crossfade).mapError .segment

variable [Resampler α] [Monad m]

/-- The audio of a note, in the format of the renderer. -/
def soundNote (renderer : Renderer m α) (notes : List (Note α)) (index : Nat) :
    ExceptT (RenderError α) m (Segment α) := do
  match ← MonadExcept.ofExcept (noteAt notes index) with
  | .rest duration => return Segment.silence renderer.format duration
  | .sung name pitch duration _ _ =>
    let sample ← MonadExcept.ofExcept (renderer.sampleOf name)
    let tuned ← renderer.engine.pitch renderer.bank sample pitch
    MonadExcept.ofExcept do
      let (consonant, vowel) ← (sample.slice tuned).mapError .voicebank
      let actual ← renderer.actualDuration notes index
      let sound ← renderer.fit consonant vowel duration actual
      (sound.conform renderer.format).mapError .segment

/-- The audio of a note; an error carries the index of the note. -/
def renderNote (renderer : Renderer m α) (notes : List (Note α)) (index : Nat) :
    ExceptT (RenderError α) m (Segment α) :=
  ExceptT.adapt (RenderError.atNote index) (renderer.soundNote notes index)

/-- The audio of every note for itself. -/
def renderNotes (renderer : Renderer m α) (notes : List (Note α))
    (schedule : WorkerPool.Schedule := WorkerPool.Schedule.first) :
    ExceptT (RenderError α) m (List (Segment α)) :=
  WorkerPool.runIndexed notes.length renderer.workers (renderer.renderNote notes) schedule

/-- Puts the render of the note with an index at the end of a timeline: the timeline grows by the
render less the overlap of the next note, and the render is added from the overlap before the old
end on. -/
def spliceOne (renderer : Renderer m α) (notes : List (Note α)) (timeline : Draft α) (index : Nat)
    (render : Segment α) : Draft α :=
  let overlap : α := (renderer.nextTiming? notes index).elim 0.0 Timing.overlap
  let back := renderer.format.framesIn overlap
  (timeline.extendFrames (render.frames - back)).mixAt (timeline.frames - back) render

/-- Splices the renders from an index on onto a timeline. -/
def spliceFrom (renderer : Renderer m α) (notes : List (Note α)) :
    Nat → Draft α → List (Segment α) → Except (RenderError α) (Draft α)
  | _, timeline, [] => .ok timeline
  | index, timeline, render :: rest => do
    let render ← (render.conform renderer.format).mapError .segment
    renderer.spliceFrom notes (index + 1) (renderer.spliceOne notes timeline index render) rest

/-- The timeline made of the renders of its notes. -/
def splice (renderer : Renderer m α) (notes : List (Note α)) (renders : List (Segment α)) :
    Except (RenderError α) (Segment α) :=
  (renderer.spliceFrom notes 0 (Segment.empty renderer.format).draft renders).map Draft.freeze

/-- The audio of a timeline. -/
def render (renderer : Renderer m α) (notes : List (Note α))
    (schedule : WorkerPool.Schedule := WorkerPool.Schedule.first) :
    ExceptT (RenderError α) m (Segment α) := do
  let renders ← renderer.renderNotes notes schedule
  MonadExcept.ofExcept (renderer.splice notes renders)

end Renderer

end SingingVoice
