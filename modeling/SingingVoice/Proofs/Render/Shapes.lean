import Mathlib
import SingingVoice.Proofs.Render.Notes
import SingingVoice.Proofs.Segment.Joined

/-!
# Shapes of sung notes

How the render of a sung note is made of the audio that the engine tunes its sample to. The engine
may do something else every time; `Engine.Tunes` says of what kind its audio is, and `Renderer.Cut`
into which consonant and vowel such audio is cut for a note. If the engine works in the format of
the renderer, every render of the note is fitted together from a cut of this kind
(`satisfiesM_renderNote`), in one of the two ways of `fit_cases`.
-/

namespace SingingVoice

variable {m : Type → Type} {α : Type}

namespace Engine

/-- Whatever the engine tunes a sample of a voicebank to is audio of a kind. -/
def Tunes [Monad m] (engine : Engine m α) (bank : Voicebank α)
    (Audio : Sample α → α → Segment α → Prop) : Prop :=
  ∀ sample target, SatisfiesM (Audio sample target) (engine.pitch bank sample target)

/-- The kind of audio that is determined. -/
def Only (audio : Sample α → α → Except (RenderError α) (Segment α)) (sample : Sample α) (target : α)
    (tuned : Segment α) : Prop :=
  audio sample target = .ok tuned

/-- The engine works in a format and keeps to durations: audio of the kind that it tunes samples to
is in the format, and a vowel in the format is stretched within the format to exactly as many whole
frames as the duration has. -/
structure Keeps [Scalar α] (engine : Engine m α) (format : Format)
    (Audio : Sample α → α → Segment α → Prop) : Prop where
  tuned : ∀ sample target tuned, Audio sample target tuned → tuned.format = format
  stretched : ∀ (vowel stretched : Segment α) (ms : α), vowel.format = format →
    engine.stretch vowel ms = .ok stretched →
      stretched.format = format ∧ stretched.WholeFrames ∧ stretched.frames = format.framesIn ms

end Engine

section Results

/-- An action with a determined result only has that result. -/
theorem Gives.satisfiesM [Monad m] [LawfulMonad m] {β : Type} {action : m β} {result : β}
    (h : Gives action result) : SatisfiesM (· = result) action := by
  rw [← h]
  exact SatisfiesM.bind SatisfiesM.trivial fun _ _ => SatisfiesM.pure rfl

/-- An engine whose audio is determined tunes samples to that audio. -/
theorem Engine.Sings.tunes [Monad m] [LawfulMonad m] {engine : Engine m α} {bank : Voicebank α}
    {audio : Sample α → α → Except (RenderError α) (Segment α)} (h : engine.Sings bank audio) :
    engine.Tunes bank (Engine.Only audio) := by
  intro sample target
  rw [SatisfiesM_ExceptT_eq]
  refine (h sample target).satisfiesM.imp ?_
  rintro result rfl tuned htuned
  exact htuned

variable [Monad m] [LawfulMonad m] {ε ε' β : Type} {property : β → Prop}

/-- A result that is there before the action. -/
theorem satisfiesM_ofExcept {result : Except ε β} (h : ∀ value, result = .ok value → property value) :
    SatisfiesM property (MonadExcept.ofExcept result : ExceptT ε m β) := by
  cases result with
  | ok value => exact SatisfiesM.pure (h value rfl)
  | error error =>
      rw [SatisfiesM_ExceptT_eq]
      exact SatisfiesM.pure nofun

/-- Values do not change with errors. -/
theorem satisfiesM_adapt {action : ExceptT ε m β} (change : ε → ε')
    (h : SatisfiesM property action) : SatisfiesM property (ExceptT.adapt change action) := by
  rw [SatisfiesM_ExceptT_eq] at h ⊢
  refine SatisfiesM.map h ?_
  intro result hresult value hvalue
  exact hresult value (Except.mapError_eq_ok.mp hvalue)

end Results

namespace Renderer

variable [Scalar α] (renderer : Renderer m α) (Audio : Sample α → α → Segment α → Prop)
  (notes : List (Note α)) (index : Nat)

/-- A sung note is cut: audio that the sample of the note may be tuned to falls into a consonant and
a vowel, and the note must sound for so long. -/
structure Cut (consonant vowel : Segment α) (duration actual : α) : Prop where
  audio : ∃ name pitch preutterance overlap sample tuned,
    notes[index]? = some (.sung name pitch duration preutterance overlap) ∧
    renderer.bank.find? name = some sample ∧ Audio sample pitch tuned ∧
    sample.slice tuned = .ok (consonant, vowel)
  actual : renderer.actualDuration notes index = .ok actual

variable {renderer Audio notes index}

/-- A note is cut into whole frames in the format of the engine. -/
theorem Cut.parts {consonant vowel : Segment α} {duration actual : α}
    (h : renderer.Cut Audio notes index consonant vowel duration actual)
    (hkeeps : renderer.engine.Keeps renderer.format Audio) :
    (consonant.format = renderer.format ∧ consonant.WholeFrames) ∧
      (vowel.format = renderer.format ∧ vowel.WholeFrames) := by
  obtain ⟨name, pitch, preutterance, overlap, sample, tuned, -, -, haudio, hslice⟩ := h.audio
  rw [← hkeeps.tuned sample pitch tuned haudio]
  exact Sample.parts_of_slice hslice

/-- If the audio of samples is determined, a sung note is cut in one way only. -/
theorem Cut.unique {audio : Sample α → α → Except (RenderError α) (Segment α)}
    {consonant consonant' vowel vowel' : Segment α} {duration duration' actual actual' : α}
    (h : renderer.Cut (Engine.Only audio) notes index consonant vowel duration actual)
    (h' : renderer.Cut (Engine.Only audio) notes index consonant' vowel' duration' actual') :
    consonant = consonant' ∧ vowel = vowel' ∧ duration = duration' ∧ actual = actual' := by
  obtain ⟨name, pitch, preutterance, overlap, sample, tuned, hnote, hsample, htuned, hslice⟩ :=
    h.audio
  obtain ⟨name', pitch', preutterance', overlap', sample', tuned', hnote', hsample', htuned',
    hslice'⟩ := h'.audio
  cases hnote.symm.trans hnote'
  cases hsample.symm.trans hsample'
  cases htuned.symm.trans htuned'
  cases hslice.symm.trans hslice'
  exact ⟨rfl, rfl, rfl, Except.ok.inj (h.actual.symm.trans h'.actual)⟩

omit [Scalar α] in
/-- A sample that an alias has is found by it. -/
theorem find_of_sampleOf {name : String} {sample : Sample α}
    (h : renderer.sampleOf name = .ok sample) : renderer.bank.find? name = some sample := by
  have hget := Except.mapError_eq_ok.mp h
  unfold Voicebank.get at hget
  split at hget
  · rename_i found hfound
    cases hget
    exact hfound
  · cases hget

variable [Resampler α]

/-- Consonant and vowel are joined and cut off after the duration if they last longer than the note
must sound, and else the consonant is joined to the stretched vowel. -/
theorem fit_cases {consonant vowel render : Segment α} {duration actual : α}
    (h : renderer.fit consonant vowel duration actual = .ok render) :
    (actual < consonant.duration + vowel.duration ∧
      ∃ joined, consonant.append vowel renderer.crossfade = .ok joined ∧
        render = joined.sliceFrames 0 (joined.format.framesIn duration)) ∨
    (¬ actual < consonant.duration + vowel.duration ∧
      ∃ stretched, renderer.engine.stretch vowel
          (actual - consonant.duration + renderer.crossfade) = .ok stretched ∧
        consonant.append stretched renderer.crossfade = .ok render) := by
  unfold fit at h
  dsimp only at h
  split at h
  · rename_i hshort
    obtain ⟨joined, hjoined, h⟩ := Except.bind_eq_ok.mp h
    cases h
    exact .inl ⟨hshort, joined, Except.mapError_eq_ok.mp hjoined, rfl⟩
  · rename_i hlong
    obtain ⟨stretched, hstretched, h⟩ := Except.bind_eq_ok.mp h
    exact .inr ⟨hlong, stretched, hstretched, Except.mapError_eq_ok.mp h⟩

/-- Consonant and vowel are fitted together if the engine stretches the vowel and the crossfade
joins the consonant to whatever comes of it. -/
theorem exists_fit {consonant vowel : Segment α} {duration actual : α}
    (hjoined : ∃ joined, consonant.append vowel renderer.crossfade = .ok joined)
    (hstretched : ¬ actual < consonant.duration + vowel.duration →
      ∃ stretched render, renderer.engine.stretch vowel
          (actual - consonant.duration + renderer.crossfade) = .ok stretched ∧
        consonant.append stretched renderer.crossfade = .ok render) :
    ∃ render, renderer.fit consonant vowel duration actual = .ok render := by
  unfold fit
  dsimp only
  split
  · obtain ⟨joined, hjoined⟩ := hjoined
    rw [hjoined]
    exact ⟨_, rfl⟩
  · rename_i hlong
    obtain ⟨stretched, render, hstretched, hrender⟩ := hstretched hlong
    rw [hstretched, Except.ok_bind, hrender]
    exact ⟨_, rfl⟩

/-- What is fitted together has the format of the consonant. -/
theorem format_fit {consonant vowel render : Segment α} {duration actual : α}
    (h : renderer.fit consonant vowel duration actual = .ok render) :
    render.format = consonant.format := by
  rcases fit_cases h with ⟨-, joined, hjoined, rfl⟩ | ⟨-, stretched, -, hrender⟩
  · show joined.format = consonant.format
    exact Segment.format_append hjoined
  · exact Segment.format_append hrender

/-- Audio in the format of the renderer is shaped without a conversion. -/
theorem fit_of_shapeNote {sample : Sample α} {duration : α} {tuned render : Segment α}
    (hformat : tuned.format = renderer.format)
    (h : renderer.shapeNote notes index sample duration tuned = .ok render) :
    ∃ consonant vowel actual, sample.slice tuned = .ok (consonant, vowel) ∧
      renderer.actualDuration notes index = .ok actual ∧
      renderer.fit consonant vowel duration actual = .ok render := by
  obtain ⟨⟨consonant, vowel⟩, hslice, h⟩ := Except.bind_eq_ok.mp h
  obtain ⟨actual, hactual, h⟩ := Except.bind_eq_ok.mp h
  obtain ⟨sound, hsound, h⟩ := Except.bind_eq_ok.mp h
  have hslice' := Except.mapError_eq_ok.mp hslice
  have hsoundFormat : sound.format = renderer.format :=
    (format_fit hsound).trans ((Sample.parts_of_slice hslice').1.1.trans hformat)
  rw [Segment.conform_self hsoundFormat] at h
  cases h
  exact ⟨consonant, vowel, actual, hslice', hactual, hsound⟩

/-- A rest is rendered as silence. -/
theorem renderNote_rest [Monad m] [LawfulMonad m] {duration : α}
    (hnote : notes[index]? = some (.rest duration)) :
    renderer.renderNote notes index = pure (.silence renderer.format duration) := by
  have hfound : noteAt notes index = .ok (.rest duration) := by
    rw [noteAt, hnote]
  have hsound : renderer.soundNote notes index = pure (.silence renderer.format duration) := by
    unfold soundNote
    rw [hfound]
    exact pure_bind _ _
  rw [renderNote, hsound]
  show ExceptT.mk (Except.mapError _ <$> pure (.ok _)) = _
  rw [map_pure]
  rfl

variable {name : String} {pitch duration : α} {preutterance overlap : Option α}

/-- Every render of a sung note is fitted together from a cut. -/
theorem satisfiesM_renderNote [Monad m] [LawfulMonad m]
    (hengine : renderer.engine.Tunes renderer.bank Audio)
    (hkeeps : renderer.engine.Keeps renderer.format Audio)
    (hnote : notes[index]? = some (.sung name pitch duration preutterance overlap)) :
    SatisfiesM
      (fun render => ∃ consonant vowel actual,
        renderer.Cut Audio notes index consonant vowel duration actual ∧
        renderer.fit consonant vowel duration actual = .ok render)
      (renderer.renderNote notes index) := by
  have hfound : noteAt notes index = .ok (.sung name pitch duration preutterance overlap) := by
    rw [noteAt, hnote]
  apply satisfiesM_adapt
  unfold soundNote
  rw [hfound]
  refine SatisfiesM.bind (satisfiesM_ofExcept fun note hok => (Except.ok.inj hok).symm) ?_
  rintro note rfl
  refine SatisfiesM.bind (satisfiesM_ofExcept fun sample hsample => hsample) ?_
  intro sample hsample
  refine SatisfiesM.bind (hengine sample pitch) ?_
  intro tuned htuned
  apply satisfiesM_ofExcept
  intro render hrender
  obtain ⟨consonant, vowel, actual, hslice, hactual, hfit⟩ :=
    fit_of_shapeNote (hkeeps.tuned sample pitch tuned htuned) hrender
  exact ⟨consonant, vowel, actual,
    ⟨⟨name, pitch, preutterance, overlap, sample, tuned, hnote, find_of_sampleOf hsample, htuned,
      hslice⟩, hactual⟩, hfit⟩

/-- If the audio of samples is determined, the render of a sung note is fitted together from the cut
of that audio. -/
theorem fit_of_noteRender {audio : Sample α → α → Except (RenderError α) (Segment α)}
    {render : Segment α}
    (hkeeps : renderer.engine.Keeps renderer.format (Engine.Only audio))
    (hnote : notes[index]? = some (.sung name pitch duration preutterance overlap))
    (h : renderer.noteRender audio notes index = .ok render) :
    ∃ consonant vowel actual,
      renderer.Cut (Engine.Only audio) notes index consonant vowel duration actual ∧
      renderer.fit consonant vowel duration actual = .ok render := by
  have hfound : noteAt notes index = .ok (.sung name pitch duration preutterance overlap) := by
    rw [noteAt, hnote]
  have hsound := Except.mapError_eq_ok.mp h
  rw [noteSound, hfound, Except.ok_bind] at hsound
  obtain ⟨sample, hsample, hsound⟩ := Except.bind_eq_ok.mp hsound
  obtain ⟨tuned, htuned, hshape⟩ := Except.bind_eq_ok.mp hsound
  obtain ⟨consonant, vowel, actual, hslice, hactual, hfit⟩ :=
    fit_of_shapeNote (hkeeps.tuned sample pitch tuned htuned) hshape
  exact ⟨consonant, vowel, actual,
    ⟨⟨name, pitch, preutterance, overlap, sample, tuned, hnote, find_of_sampleOf hsample, htuned,
      hslice⟩, hactual⟩, hfit⟩

/-- If the audio of samples is determined, what is fitted together from the cut of a sung note is
its render. -/
theorem noteRender_of_fit {audio : Sample α → α → Except (RenderError α) (Segment α)}
    {consonant vowel render : Segment α} {duration actual : α}
    (hkeeps : renderer.engine.Keeps renderer.format (Engine.Only audio))
    (hcut : renderer.Cut (Engine.Only audio) notes index consonant vowel duration actual)
    (hfit : renderer.fit consonant vowel duration actual = .ok render) :
    renderer.noteRender audio notes index = .ok render := by
  obtain ⟨name, pitch, preutterance, overlap, sample, tuned, hnote, hsample, htuned, hslice⟩ :=
    hcut.audio
  have hformat : render.format = renderer.format :=
    (format_fit hfit).trans (hcut.parts hkeeps).1.1
  have hshape : renderer.shapeNote notes index sample duration tuned = .ok render := by
    unfold shapeNote
    rw [hslice, hcut.actual]
    show renderer.fit consonant vowel duration actual >>= _ = _
    rw [hfit, Except.ok_bind, Segment.conform_self hformat]
    rfl
  rw [noteRender_sung hnote hsample, htuned, Except.ok_bind, hshape]
  rfl

end Renderer

end SingingVoice
