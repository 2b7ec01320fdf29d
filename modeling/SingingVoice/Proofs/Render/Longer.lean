import Mathlib
import SingingVoice.Proofs.Render.Lengths

/-!
# Longer notes

A note that is made longer never gets a shorter render, whatever its crossfade. Where a note is cut
off, or where it is stretched, this is so because times are rounded in their order. Between the two
there is a jump: a note that is cut off has no more frames than its consonant and vowel together
(`frames_le_parts`), and one that is stretched no fewer (`parts_le_frames`). The main theorem is
`longer_note_not_shorter`.
-/

namespace SingingVoice.Renderer

variable {m : Type → Type}

/-- No timing depends on the duration of a note. -/
theorem timingAt?_set_duration {α : Type} [Scalar α] (renderer : Renderer m α)
    {notes : List (Note α)} {index : Nat} {name : String} {pitch duration : α} {preutterance overlap : Option α}
    (hnote : notes[index]? = some (.sung name pitch duration preutterance overlap)) (duration' : α)
    (place : Nat) :
    renderer.timingAt? (notes.set index (.sung name pitch duration' preutterance overlap)) place =
      renderer.timingAt? notes place := by
  unfold timingAt?
  rcases eq_or_ne index place with rfl | hne
  · rw [List.getElem?_set_self', hnote]
    rfl
  · rw [List.getElem?_set_ne hne]

variable {renderer : Renderer m ℝ} {Audio : Sample ℝ → ℝ → Segment ℝ → Prop}
  {notes notes' : List (Note ℝ)} {index : Nat} {consonant vowel render render' : Segment ℝ}
  {duration duration' actual actual' : ℝ}

/-- A note of another duration is cut into the same parts, and must sound for as much longer or
shorter. -/
theorem Cut.set_duration {name : String} {pitch : ℝ} {preutterance overlap : Option ℝ}
    (h : renderer.Cut Audio notes index consonant vowel duration actual)
    (hnote : notes[index]? = some (.sung name pitch duration preutterance overlap))
    (duration' : ℝ) :
    renderer.Cut Audio (notes.set index (.sung name pitch duration' preutterance overlap)) index
      consonant vowel duration' (actual + (duration' - duration)) := by
  obtain ⟨name, pitch, preutterance, overlap, sample, tuned, hsung, hsample, haudio, hslice⟩ :=
    h.audio
  cases hnote.symm.trans hsung
  have hset : (notes.set index (.sung name pitch duration' preutterance overlap))[index]? =
      some (.sung name pitch duration' preutterance overlap) :=
    List.getElem?_set_self (List.getElem?_eq_some_iff.mp hnote).1
  refine ⟨⟨name, pitch, preutterance, overlap, sample, tuned, hset, hsample, haudio, hslice⟩, ?_⟩
  have htiming := timingAt?_set_duration renderer hnote duration'
  have hactual := h.actual.symm.trans (actualDuration_of_timing hnote
    (timing_of_sample pitch duration preutterance overlap hsample))
  obtain rfl := Except.ok.inj hactual
  rw [actualDuration_of_timing hset
    (timing_of_sample pitch duration' preutterance overlap hsample)]
  simp only [preutteranceAt, overlapAt, htiming, Note.duration]
  congr 1
  ring

/-! ## Both sides of the jump -/

section Lengths

variable [Resampler ℝ]

/-- A note that is cut off has no more frames than its parts. -/
theorem frames_le_parts (hcut : renderer.Cut Audio notes index consonant vowel duration actual)
    (hkeeps : renderer.engine.Keeps renderer.format Audio)
    (h : renderer.fit consonant vowel duration actual = .ok render)
    (hshort : actual < consonant.duration + vowel.duration) :
    render.frames ≤ consonant.frames + vowel.frames := by
  obtain ⟨joined, -, -, hframes⟩ := frames_of_short hcut hkeeps h hshort
  omega

/-- A note that is stretched has no fewer frames than its parts: the vowel is left at least its own
frames and those of the crossfade, and the crossfade takes no more away. -/
theorem parts_le_frames (hcut : renderer.Cut Audio notes index consonant vowel duration actual)
    (hkeeps : renderer.engine.Keeps renderer.format Audio)
    (h : renderer.fit consonant vowel duration actual = .ok render)
    (hlong : consonant.duration + vowel.duration ≤ actual) (hcrossfade : 0 ≤ renderer.crossfade) :
    consonant.frames + vowel.frames ≤ render.frames := by
  obtain ⟨-, hvowel, -⟩ := hcut.parts hkeeps
  obtain ⟨-, hframes, -⟩ := frames_of_long hcut hkeeps h hlong
  have hduration : vowel.duration = renderer.format.millis vowel.frames := by
    rw [Segment.duration, hvowel]
  have hleft : renderer.format.framesIn renderer.crossfade + vowel.frames ≤
      renderer.format.framesIn (actual - consonant.duration + renderer.crossfade) := by
    rw [← Format.framesIn_add_millis (hcut.rate_pos hkeeps) hcrossfade, ← hduration]
    exact Format.framesIn_mono _ (by linarith)
  omega

/-- Parts that are fitted to a longer note have no fewer frames. -/
theorem frames_le_frames (hcut : renderer.Cut Audio notes index consonant vowel duration actual)
    (hcut' : renderer.Cut Audio notes' index consonant vowel duration' actual')
    (hkeeps : renderer.engine.Keeps renderer.format Audio) (hcrossfade : 0 ≤ renderer.crossfade)
    (hduration : duration ≤ duration') (hactual : actual ≤ actual')
    (h : renderer.fit consonant vowel duration actual = .ok render)
    (h' : renderer.fit consonant vowel duration' actual' = .ok render') :
    render.frames ≤ render'.frames := by
  rcases lt_or_ge actual' (consonant.duration + vowel.duration) with hshort' | hlong'
  · have hshort := hactual.trans_lt hshort'
    obtain ⟨joined, -, -, hframes⟩ := frames_of_short hcut hkeeps h hshort
    obtain ⟨joined', -, -, hframes'⟩ := frames_of_short hcut' hkeeps h' hshort'
    have hmono := renderer.format.framesIn_mono hduration
    omega
  · rcases lt_or_ge actual (consonant.duration + vowel.duration) with hshort | hlong
    · exact (frames_le_parts hcut hkeeps h hshort).trans
        (parts_le_frames hcut' hkeeps h' hlong' hcrossfade)
    · obtain ⟨-, hframes, -⟩ := frames_of_long hcut hkeeps h hlong
      obtain ⟨-, hframes', -⟩ := frames_of_long hcut' hkeeps h' hlong'
      have hmono : renderer.format.framesIn (actual - consonant.duration + renderer.crossfade) ≤
          renderer.format.framesIn (actual' - consonant.duration + renderer.crossfade) :=
        Format.framesIn_mono _ (by linarith)
      omega

/-- In exact arithmetic, if the engine gives the same audio for a sample and a note number every
time and keeps to the format of the renderer and to durations, a sung note that is made longer has a
render of at least as many frames, with any crossfade. Both renders are determined; this holds
whenever there are such. -/
theorem longer_note_not_shorter [Monad m] [LawfulMonad m] (renderer : Renderer m ℝ)
    {audio : Sample ℝ → ℝ → Except (RenderError ℝ) (Segment ℝ)}
    (hengine : renderer.engine.Sings renderer.bank audio)
    (hkeeps : renderer.engine.Keeps renderer.format (Engine.Only audio)) (ms : ℝ)
    {notes : List (Note ℝ)} {index : Nat} {name : String} {pitch duration duration' : ℝ}
    {preutterance overlap : Option ℝ}
    (hnote : notes[index]? = some (.sung name pitch duration preutterance overlap))
    (hduration : duration ≤ duration') :
    let longer := notes.set index (.sung name pitch duration' preutterance overlap)
    Gives ((renderer.withCrossfade ms).renderNote notes index).run
      ((renderer.withCrossfade ms).noteRender audio notes index) ∧
    Gives ((renderer.withCrossfade ms).renderNote longer index).run
      ((renderer.withCrossfade ms).noteRender audio longer index) ∧
    ∀ render render',
      (renderer.withCrossfade ms).noteRender audio notes index = .ok render →
      (renderer.withCrossfade ms).noteRender audio longer index = .ok render' →
      render.frames ≤ render'.frames := by
  intro longer
  have hsings := sings_withCrossfade hengine ms
  have hkeeps' := keeps_withCrossfade hkeeps ms
  have hlonger : longer[index]? = some (.sung name pitch duration' preutterance overlap) :=
    List.getElem?_set_self (List.getElem?_eq_some_iff.mp hnote).1
  refine ⟨has_renderNote .given hsings notes index, has_renderNote .given hsings longer index, ?_⟩
  intro render render' hrender hrender'
  obtain ⟨consonant, vowel, actual, hcut, hfit⟩ := fit_of_noteRender hkeeps' hnote hrender
  obtain ⟨consonant', vowel', actual', hcut', hfit'⟩ := fit_of_noteRender hkeeps' hlonger hrender'
  -- the engine tunes the sample to the same audio for both notes
  obtain ⟨rfl, rfl, -, rfl⟩ := (hcut.set_duration hnote duration').unique hcut'
  refine frames_le_frames hcut hcut' hkeeps' ?_ hduration (by linarith) hfit hfit'
  rw [crossfade_withCrossfade]
  exact le_max_right _ _

end Lengths

/-- With a crossfade of 100 ms, a note of 240 ms that starts 50 ms early is cut off, and has 200
frames; one of 260 ms is stretched, and has no fewer. -/
theorem stretched_note_not_shorter :
    silent.engine.Sings silent.bank (fun _ _ => .ok plainAudio) ∧
    silent.engine.Keeps silent.format (Engine.Only fun _ _ => .ok plainAudio) ∧
    ∃ render render' : Segment ℝ,
      Gives ((silent.withCrossfade (100 : ℕ)).renderNote [plainNote 240] 0).run (.ok render) ∧
      Gives ((silent.withCrossfade (100 : ℕ)).renderNote [plainNote 260] 0).run (.ok render') ∧
      render.frames = 200 ∧ render.frames ≤ render'.frames := by
  have hnote : [plainNote 240][0]? = some (plainNote 240) := rfl
  have hnote' : [plainNote 260][0]? = some (plainNote 260) := rfl
  obtain ⟨consonant, vowel, render, h⟩ := exists_silentNote (by norm_num : 100 ≤ 100) hnote rfl
  obtain ⟨consonant', vowel', render', h'⟩ := exists_silentNote (by norm_num : 100 ≤ 100) hnote' rfl
  have hrender := noteRender_of_fit (keeps_withCrossfade keeps_silent _) h.cut h.fit
  have hrender' := noteRender_of_fit (keeps_withCrossfade keeps_silent _) h'.cut h'.fit
  obtain ⟨-, -, hframes⟩ := longer_note_not_shorter silent sings_silent keeps_silent (100 : ℕ) hnote
    (by norm_num : ((240 : ℕ) : ℝ) ≤ (260 : ℕ))
  exact ⟨sings_silent, keeps_silent, render, render', h.gives, h'.gives,
    h.frames_of_short (by norm_num) (by norm_num), hframes render render' hrender hrender'⟩

end SingingVoice.Renderer
