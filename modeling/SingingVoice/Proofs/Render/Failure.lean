import Mathlib
import SingingVoice.Proofs.Render.Notes
import SingingVoice.Proofs.Render.Splice
import SingingVoice.Proofs.WorkerPool.Outcome

/-!
# Failures of rendering

A timeline is rendered exactly if each of its notes is. Otherwise rendering fails with the error of
the first note that has no render, whatever the number of workers and the order of their actions.
The main theorem is `render_fails_at_first_bad_note`.
-/

namespace SingingVoice.Renderer

variable {m : Type → Type} {α : Type} [Scalar α] [Resampler α]

/-- The audio of a timeline if that of its samples is known: the renders of its notes in order,
spliced. -/
def timelineRender (renderer : Renderer m α)
    (audio : Sample α → α → Except (RenderError α) (Segment α)) (notes : List (Note α)) :
    Except (RenderError α) (Segment α) :=
  WorkerPool.inOrder notes.length (renderer.noteRender audio notes) >>= renderer.splice notes

variable {renderer : Renderer m α} {audio : Sample α → α → Except (RenderError α) (Segment α)}
  {notes : List (Note α)}

/-- The number of workers does not matter to the splicing of renders onto a timeline. -/
theorem spliceFrom_workers (workers index : Nat) (timeline : Draft α)
    (renders : List (Segment α)) :
    ({ renderer with workers } : Renderer m α).spliceFrom notes index timeline renders =
      renderer.spliceFrom notes index timeline renders := by
  induction renders generalizing index timeline with
  | nil => rfl
  | cons render rest ih =>
      unfold spliceFrom
      simp only [ih]
      rfl

/-- The number of workers does not matter to splicing. -/
theorem splice_workers (workers : Nat) (renders : List (Segment α)) :
    ({ renderer with workers } : Renderer m α).splice notes renders =
      renderer.splice notes renders := by
  unfold splice
  rw [spliceFrom_workers]

section Effects

variable [Monad m] [LawfulMonad m] (results : Results m)
  (hengine : renderer.engine.TunesTo results renderer.bank audio)

include hengine

/-- If the audio of samples is determined, so are the renders of all notes, for any number of
workers and any schedule, in every sense. -/
theorem has_renderNotes (notes : List (Note α)) (workers : Nat) (schedule : WorkerPool.Schedule) :
    results.Has (({ renderer with workers } : Renderer m α).renderNotes notes schedule).run
      (WorkerPool.inOrder notes.length (renderer.noteRender audio notes)) := by
  have hnotes : ∀ index,
      results.Has (({ renderer with workers } : Renderer m α).renderNote notes index).run
        (renderer.noteRender audio notes index) := has_renderNote results hengine notes
  exact WorkerPool.has_runIndexed results hnotes notes.length workers schedule

/-- If the audio of samples is determined, so is that of every timeline, for any number of workers
and any schedule, in every sense. -/
theorem has_render (notes : List (Note α)) (workers : Nat) (schedule : WorkerPool.Schedule) :
    results.Has (({ renderer with workers } : Renderer m α).render notes schedule).run
      (renderer.timelineRender audio notes) := by
  apply results.bind_except (has_renderNotes results hengine notes workers schedule)
  intro renders
  rw [splice_workers]
  exact results.of_except _

end Effects

/-- The renders of all notes splice to the audio of the timeline. -/
theorem timelineRender_of_renders {renders : List (Segment α)}
    (hlength : renders.length = notes.length)
    (hrenders : ∀ index (h : index < renders.length),
      renderer.noteRender audio notes index = .ok renders[index]) :
    ∃ timeline, renderer.splice notes renders = .ok timeline ∧
      renderer.timelineRender audio notes = .ok timeline := by
  have hsplice : renderer.splice notes renders = .ok _ :=
    splice_of_format (format_of_renders hrenders)
  refine ⟨_, hsplice, ?_⟩
  rw [timelineRender, WorkerPool.inOrder_eq_ok_iff.mpr ⟨hlength, hrenders⟩, Except.ok_bind, hsplice]

/-- An error of a timeline is that of the first note without a render. -/
theorem first_bad_note {error : RenderError α}
    (h : renderer.timelineRender audio notes = .error error) :
    ∃ index < notes.length, renderer.noteRender audio notes index = .error error ∧
      ∀ earlier < index, ∃ render, renderer.noteRender audio notes earlier = .ok render := by
  rcases Except.bind_eq_error.mp h with hnotes | ⟨renders, hnotes, hsplice⟩
  · exact WorkerPool.inOrder_eq_error_iff.mp hnotes
  · -- renders are in the format of the renderer, so splicing them does not fail
    obtain ⟨hlength, hrenders⟩ := WorkerPool.inOrder_eq_ok_iff.mp hnotes
    obtain ⟨timeline, hok, _⟩ := timelineRender_of_renders hlength hrenders
    rw [hok] at hsplice
    cases hsplice

/-- A timeline has audio exactly if each of its notes has a render. -/
theorem timelineRender_ok_iff :
    (∃ timeline, renderer.timelineRender audio notes = .ok timeline) ↔
      ∀ index < notes.length, ∃ render, renderer.noteRender audio notes index = .ok render := by
  constructor
  · rintro ⟨timeline, htimeline⟩ index hindex
    obtain ⟨renders, hnotes, _⟩ := Except.bind_eq_ok.mp htimeline
    obtain ⟨hlength, hrenders⟩ := WorkerPool.inOrder_eq_ok_iff.mp hnotes
    exact ⟨_, hrenders index (hlength ▸ hindex)⟩
  · intro hrenders
    cases hresult : renderer.timelineRender audio notes with
    | ok timeline => exact ⟨timeline, rfl⟩
    | error error =>
        obtain ⟨index, hindex, herror, _⟩ := first_bad_note hresult
        obtain ⟨render, hrender⟩ := hrenders index hindex
        rw [hrender] at herror
        cases herror

/-- Rendering a timeline succeeds exactly if every note has a render, and then splices the renders
in the order of the notes, which does not fail. Otherwise it fails with the error of the first note
without a render, which carries its index. This is so for any number of workers and any schedule. -/
theorem render_fails_at_first_bad_note [Monad m] [LawfulMonad m] (renderer : Renderer m α)
    {audio : Sample α → α → Except (RenderError α) (Segment α)}
    (hengine : renderer.engine.Sings renderer.bank audio) (notes : List (Note α)) :
    (∀ index,
      Gives (renderer.renderNote notes index).run (renderer.noteRender audio notes index)) ∧
    (∀ workers schedule,
      Gives (({ renderer with workers } : Renderer m α).render notes schedule).run
        (renderer.timelineRender audio notes)) ∧
    ((∃ timeline, renderer.timelineRender audio notes = .ok timeline) ↔
      ∀ index < notes.length, ∃ render, renderer.noteRender audio notes index = .ok render) ∧
    (∀ renders : List (Segment α), renders.length = notes.length →
      (∀ index (h : index < renders.length),
        renderer.noteRender audio notes index = .ok renders[index]) →
      ∃ timeline, renderer.splice notes renders = .ok timeline ∧
        renderer.timelineRender audio notes = .ok timeline) ∧
    ∀ error, renderer.timelineRender audio notes = .error error →
      ∃ index < notes.length, error.noteIndex? = some index ∧
        (∃ cause, error = .note index cause) ∧
        renderer.noteRender audio notes index = .error error ∧
        ∀ earlier < index, ∃ render, renderer.noteRender audio notes earlier = .ok render := by
  refine ⟨has_renderNote .given hengine notes, has_render .given hengine notes,
    timelineRender_ok_iff, ?_, ?_⟩
  · intro renders hlength hrenders
    exact timelineRender_of_renders hlength hrenders
  · intro error herror
    obtain ⟨index, hindex, hnote, hfirst⟩ := first_bad_note herror
    obtain ⟨cause, rfl⟩ := error_noteRender hnote
    exact ⟨index, hindex, rfl, ⟨cause, rfl⟩, hnote, hfirst⟩

/-- A sample of a tenth of a second of consonant and a fifth of a second of vowel. -/
noncomputable def plainSample : Sample ℝ :=
  ⟨"a.wav", "a", 0, (100 : ℕ), -(200 : ℕ), (50 : ℕ), (30 : ℕ)⟩

/-- A voicebank in exact arithmetic with one sample. -/
noncomputable def plainBank : Voicebank ℝ :=
  .ofSamples "" [plainSample]

/-- The sample is found by its alias. -/
theorem find_plainSample : plainBank.find? "a" = some plainSample := by
  simp [plainBank, plainSample, Voicebank.ofSamples, Voicebank.insert, Voicebank.empty,
    Voicebank.find?]

/-- A renderer in exact arithmetic whose engine counts its calls and fails each time. -/
noncomputable def hoarse : Renderer (StateM Nat) ℝ :=
  sequential plainBank
    { setup := fun _ => pure ()
      pitch := fun _ _ _ => do
        modify (· + 1)
        throw (.engine "hoarse")
      stretch := fun vowel _ => .ok vowel }
    (.mono 1000)

/-- A rest, a note on which the engine fails and one without a sample: rendering fails on the second
note. -/
theorem render_fails_on_second_note :
    let notes : List (Note ℝ) := [.rest 100, .sung "a" 60 100 none none, .sung "b" 60 100 none none]
    hoarse.engine.Sings hoarse.bank (fun _ _ => .error (.engine "hoarse")) ∧
    ∀ workers schedule,
      Gives (({ hoarse with workers } : Renderer (StateM Nat) ℝ).render notes schedule).run
        (.error (.note 1 (.engine "hoarse"))) := by
  intro notes
  have hengine : hoarse.engine.Sings hoarse.bank (fun _ _ => .error (.engine "hoarse")) := by
    intro sample target
    rw [gives_state_iff]
    intro calls
    rfl
  have hresult : hoarse.timelineRender (fun _ _ => .error (.engine "hoarse")) notes =
      .error (.note 1 (.engine "hoarse")) := by
    refine Except.bind_eq_error.mpr (.inl (WorkerPool.inOrder_eq_error_iff.mpr ?_))
    refine ⟨1, by decide, noteRender_sung rfl find_plainSample, ?_⟩
    intro earlier hearlier
    obtain rfl : earlier = 0 := Nat.lt_one_iff.mp hearlier
    exact ⟨_, noteRender_rest rfl⟩
  obtain ⟨-, hrender, -⟩ := render_fails_at_first_bad_note hoarse hengine notes
  rw [hresult] at hrender
  exact ⟨hengine, hrender⟩

end SingingVoice.Renderer
