import Mathlib
import SingingVoice.Proofs.Determinism
import SingingVoice.Proofs.Result
import SingingVoice.Proofs.Segment.Conformity
import SingingVoice.Render.Basic

/-!
# Renders of single notes

An engine may keep state and read files, but the audio that it tunes for a voicebank may still be
determined by the sample and the note number: from every state (`Engine.Sings`), or in another sense
of results (`Engine.TunesTo`). Then the render of every note is determined as well: `has_renderNote`
says that it is `Renderer.noteRender`, which is in the format of the renderer or an error with the
index of the note.
-/

namespace SingingVoice

variable {m : Type → Type} {α : Type}

/-- The engine always tunes the samples of a voicebank to this audio. -/
def Engine.Sings [Monad m] (engine : Engine m α) (bank : Voicebank α)
    (audio : Sample α → α → Except (RenderError α) (Segment α)) : Prop :=
  ∀ sample target, Gives (engine.pitch bank sample target).run (audio sample target)

/-- In a sense of results, the engine tunes the samples of a voicebank to this audio. The standard
engine does so as long as what it keeps is right. -/
def Engine.TunesTo [Monad m] (results : Results m) (engine : Engine m α) (bank : Voicebank α)
    (audio : Sample α → α → Except (RenderError α) (Segment α)) : Prop :=
  ∀ sample target, results.Has (engine.pitch bank sample target).run (audio sample target)

namespace Renderer

variable [Scalar α] [Resampler α] (renderer : Renderer m α)
  (audio : Sample α → α → Except (RenderError α) (Segment α)) (notes : List (Note α)) (index : Nat)

/-- What becomes of the tuned audio of a sung note. -/
def shapeNote (sample : Sample α) (duration : α) (tuned : Segment α) :
    Except (RenderError α) (Segment α) := do
  let (consonant, vowel) ← (sample.slice tuned).mapError .voicebank
  let actual ← renderer.actualDuration notes index
  let sound ← renderer.fit consonant vowel duration actual
  (sound.conform renderer.format).mapError .segment

/-- The audio of a note if that of its sample is known. -/
def noteSound : Except (RenderError α) (Segment α) := do
  match ← noteAt notes index with
  | .rest duration => return Segment.silence renderer.format duration
  | .sung name pitch duration _ _ =>
    let sample ← renderer.sampleOf name
    let tuned ← audio sample pitch
    renderer.shapeNote notes index sample duration tuned

/-- The render of a note if the audio of its sample is known. -/
def noteRender : Except (RenderError α) (Segment α) :=
  (renderer.noteSound audio notes index).mapError (RenderError.atNote index)

variable {renderer audio} {notes index}

/-- If the audio of samples is determined, so is that of every note, in every sense. -/
theorem has_soundNote [Monad m] (results : Results m)
    (hengine : renderer.engine.TunesTo results renderer.bank audio) (notes : List (Note α))
    (index : Nat) :
    results.Has (renderer.soundNote notes index).run (renderer.noteSound audio notes index) := by
  apply results.bind_except (results.of_except _)
  intro note
  cases note with
  | rest duration => exact results.of_pure _
  | sung name pitch duration preutterance overlap =>
      apply results.bind_except (results.of_except _)
      intro sample
      apply results.bind_except (hengine sample pitch)
      intro tuned
      exact results.of_except _

/-- If the audio of samples is determined, so is every render, in every sense. -/
theorem has_renderNote [Monad m] [LawfulMonad m] (results : Results m)
    (hengine : renderer.engine.TunesTo results renderer.bank audio) (notes : List (Note α))
    (index : Nat) :
    results.Has (renderer.renderNote notes index).run (renderer.noteRender audio notes index) :=
  results.adapt _ (has_soundNote results hengine notes index)

/-- A rest is silent for its duration. -/
theorem noteRender_rest {duration : α} (h : notes[index]? = some (.rest duration)) :
    renderer.noteRender audio notes index = .ok (.silence renderer.format duration) := by
  unfold noteRender noteSound noteAt
  rw [h]
  rfl

/-- A sung note is shaped from the audio of its sample. -/
theorem noteRender_sung {name : String} {pitch duration : α} {preutterance overlap : Option α}
    {sample : Sample α}
    (h : notes[index]? = some (.sung name pitch duration preutterance overlap))
    (hsample : renderer.bank.find? name = some sample) :
    renderer.noteRender audio notes index =
      (audio sample pitch >>= renderer.shapeNote notes index sample duration).mapError
        (.atNote index) := by
  have hnote : noteAt notes index =
      .ok (.sung name pitch duration preutterance overlap) := by
    rw [noteAt, h]
  have hfound : renderer.sampleOf name = .ok sample := by
    rw [sampleOf, Voicebank.get, hsample]
    rfl
  unfold noteRender noteSound
  simp only [hnote, hfound, Except.ok_bind]

/-- Every error of a render carries the index of the note. -/
theorem error_noteRender {error : RenderError α}
    (h : renderer.noteRender audio notes index = .error error) :
    ∃ cause, error = .note index cause := by
  obtain ⟨cause, -, rfl⟩ := Except.mapError_eq_error.mp h
  exact ⟨cause, rfl⟩

/-- Shaped audio is in the format of the renderer. -/
theorem format_shapeNote {sample : Sample α} {duration : α} {tuned render : Segment α}
    (h : renderer.shapeNote notes index sample duration tuned = .ok render) :
    render.format = renderer.format := by
  obtain ⟨_, _, h⟩ := Except.bind_eq_ok.mp h
  obtain ⟨_, _, h⟩ := Except.bind_eq_ok.mp h
  obtain ⟨_, _, h⟩ := Except.bind_eq_ok.mp h
  exact Segment.format_conform (Except.mapError_eq_ok.mp h)

/-- Every render is in the format of the renderer. -/
theorem format_noteRender {render : Segment α}
    (h : renderer.noteRender audio notes index = .ok render) : render.format = renderer.format := by
  obtain ⟨note, _, h⟩ := Except.bind_eq_ok.mp (Except.mapError_eq_ok.mp h)
  cases note with
  | rest duration =>
      cases h
      rfl
  | sung name pitch duration preutterance overlap =>
      obtain ⟨sample, _, h⟩ := Except.bind_eq_ok.mp h
      obtain ⟨tuned, _, h⟩ := Except.bind_eq_ok.mp h
      exact format_shapeNote h

/-- The renders of all notes are in the format of the renderer. -/
theorem format_of_renders {renders : List (Segment α)}
    (hrenders : ∀ index (h : index < renders.length),
      renderer.noteRender audio notes index = .ok renders[index]) :
    ∀ render ∈ renders, render.format = renderer.format := by
  intro render hrender
  obtain ⟨index, hindex, rfl⟩ := List.mem_iff_getElem.mp hrender
  exact format_noteRender (hrenders index hindex)

end Renderer

end SingingVoice
