import Mathlib
import SingingVoice.Proofs.Render.Lengths

/-!
# How far notes look ahead

The render of a note depends on the note and on the timing of the one after it, and on nothing else
in its timeline (`renderNote_congr`). Therefore a note of a timeline that is changed changes no
renders but its own and the one before. What is spliced before these two does not depend on the note
either (`DifferAt.splicedFirst_eq`). The main theorem is `lookahead_is_one_timing`.
-/

namespace SingingVoice.Renderer

variable {m : Type → Type} {α : Type} [Scalar α] {renderer : Renderer m α}
  {notes notes' : List (Note α)} {index place : Nat}

/-! ## Renders of single notes -/

omit [Scalar α] in
/-- The same note is found in both timelines if both have it. -/
theorem noteAt_of_inside (hinside : index < notes.length) (hnote : notes'[index]? = notes[index]?) :
    noteAt notes' index = noteAt notes index := by
  unfold noteAt
  rw [hnote, List.getElem?_eq_getElem hinside]

section Congruence

variable (hnote : noteAt notes' index = noteAt notes index)
  (hnext : renderer.nextTiming? notes' index = renderer.nextTiming? notes index)

include hnote hnext

/-- How long a note must sound depends on the timing of the next one only. -/
theorem actualDuration_congr :
    renderer.actualDuration notes' index = renderer.actualDuration notes index := by
  unfold actualDuration
  rw [hnote, hnext]

variable [Resampler α]

/-- Rendering a note depends on the timing of the next one only, whatever the engine does. -/
theorem renderNote_congr [Monad m] :
    renderer.renderNote notes' index = renderer.renderNote notes index := by
  unfold renderNote soundNote
  simp only [hnote, actualDuration_congr hnote hnext]

/-- The render of a note depends on the timing of the next one only. -/
theorem noteRender_congr (audio : Sample α → α → Except (RenderError α) (Segment α)) :
    renderer.noteRender audio notes' index = renderer.noteRender audio notes index := by
  unfold noteRender noteSound shapeNote
  simp only [hnote, actualDuration_congr hnote hnext]

/-- If the audio of samples is determined, the note has the same render in both timelines, or the
same error. -/
theorem gives_congr [Monad m] [LawfulMonad m]
    {audio : Sample α → α → Except (RenderError α) (Segment α)}
    (hengine : renderer.engine.Sings renderer.bank audio) :
    renderer.renderNote notes' index = renderer.renderNote notes index ∧
      ∃ result, Gives (renderer.renderNote notes index).run result ∧
        Gives (renderer.renderNote notes' index).run result := by
  have hrender := renderNote_congr hnote hnext
  have hgives := has_renderNote .given hengine notes index
  exact ⟨hrender, _, hgives, hrender.symm ▸ hgives⟩

end Congruence

/-- Two timelines are equally long and have the same notes, but for one. -/
structure DifferAt (notes notes' : List (Note α)) (place : Nat) : Prop where
  length : notes'.length = notes.length
  same : ∀ index, index ≠ place → notes'[index]? = notes[index]?

omit [Scalar α] in
/-- The same notes are found, and the same errors where there are none. -/
theorem DifferAt.noteAt (h : DifferAt notes notes' place) (hindex : index ≠ place) :
    noteAt notes' index = noteAt notes index := by
  unfold Renderer.noteAt
  rw [h.same index hindex, h.length]

omit [Scalar α] in
/-- Notes before others than the one have the same timing after them. -/
theorem DifferAt.nextTiming? (h : DifferAt notes notes' place) (renderer : Renderer m α)
    (hindex : index + 1 ≠ place) :
    renderer.nextTiming? notes' index = renderer.nextTiming? notes index := by
  unfold Renderer.nextTiming?
  rw [h.same (index + 1) hindex]

/-! ## Beginnings of timelines -/

/-- A render is spliced in the same way if the timing of the next note is the same. -/
theorem spliceOne_congr
    (hnext : renderer.nextTiming? notes' index = renderer.nextTiming? notes index)
    (timeline : Draft α) (render : Segment α) :
    renderer.spliceOne notes' timeline index render =
      renderer.spliceOne notes timeline index render := by
  unfold spliceOne
  rw [hnext]

variable [Resampler α]

/-- Renders are spliced in the same way if the timings after all of them are the same. -/
theorem spliceFrom_congr {renders : List (Segment α)} (timeline : Draft α)
    (hnext : ∀ later, index ≤ later → later < index + renders.length →
      renderer.nextTiming? notes' later = renderer.nextTiming? notes later) :
    renderer.spliceFrom notes' index timeline renders =
      renderer.spliceFrom notes index timeline renders := by
  induction renders generalizing index timeline with
  | nil => rfl
  | cons render rest ih =>
      have hfirst := hnext index (Nat.le_refl _) (by simp)
      have hrest : ∀ timeline, renderer.spliceFrom notes' (index + 1) timeline rest =
          renderer.spliceFrom notes (index + 1) timeline rest := by
        intro timeline
        refine ih timeline fun later hlow hhigh => hnext later (by omega) ?_
        rw [List.length_cons]
        omega
      unfold spliceFrom
      simp only [spliceOne_congr hfirst, hrest]

/-- Renders are spliced onto the timeline of the renders before them. -/
theorem spliceFrom_append (renderer : Renderer m α) (notes : List (Note α)) (index : Nat)
    (timeline : Draft α) (done rest : List (Segment α)) :
    renderer.spliceFrom notes index timeline (done ++ rest) =
      renderer.spliceFrom notes index timeline done >>= fun timeline =>
        renderer.spliceFrom notes (index + done.length) timeline rest := by
  induction done generalizing index timeline with
  | nil => rfl
  | cons render done ih =>
      have hindex : index + (render :: done).length = index + 1 + done.length := by
        rw [List.length_cons]
        omega
      rw [List.cons_append, spliceFrom, spliceFrom, hindex]
      simp only [ih, bind_assoc]

/-- The timeline while it is spliced, when it has the first renders, so many of them. -/
def splicedFirst (renderer : Renderer m α) (notes : List (Note α)) (renders : List (Segment α))
    (count : Nat) : Except (RenderError α) (Draft α) :=
  renderer.spliceFrom notes 0 (Segment.empty renderer.format).draft (renders.take count)

/-- Splicing goes on from the timeline of the first renders. -/
theorem splice_eq_splicedFirst (renderer : Renderer m α) (notes : List (Note α))
    (renders : List (Segment α)) (count : Nat) :
    renderer.splice notes renders =
      (renderer.splicedFirst notes renders count >>= fun timeline =>
        renderer.spliceFrom notes count timeline (renders.drop count)).map Draft.freeze := by
  have hsplit := renderer.spliceFrom_append notes 0 (Segment.empty renderer.format).draft
    (renders.take count) (renders.drop count)
  rw [List.take_append_drop, List.length_take, Nat.zero_add] at hsplit
  rw [splice, hsplit, splicedFirst]
  rcases Nat.le_total count renders.length with hle | hle
  · rw [Nat.min_eq_left hle]
  · -- nothing is left to be spliced
    rw [List.drop_eq_nil_of_le hle]
    rfl

/-- The timeline of the renders before a note and the one before it does not depend on that note. -/
theorem DifferAt.splicedFirst_eq (h : DifferAt notes notes' place) (renderer : Renderer m α)
    {renders renders' : List (Segment α)}
    (hrenders : ∀ index, index + 1 < place → renders'[index]? = renders[index]?) :
    renderer.splicedFirst notes' renders' (place - 1) =
      renderer.splicedFirst notes renders (place - 1) := by
  have htake : renders'.take (place - 1) = renders.take (place - 1) := by
    apply List.ext_getElem?
    intro index
    rw [List.getElem?_take, List.getElem?_take]
    split
    · exact hrenders index (by omega)
    · rfl
  unfold splicedFirst
  rw [htake]
  refine spliceFrom_congr _ fun later _ hlater => h.nextTiming? renderer ?_
  rw [List.length_take] at hlater
  omega

/-- Splicing the renders of an engine goes on from a timeline of the first of them. -/
theorem exists_splicedFirst {audio : Sample α → α → Except (RenderError α) (Segment α)}
    {renders : List (Segment α)}
    (hrenders : WorkerPool.inOrder notes.length (renderer.noteRender audio notes) = .ok renders)
    (count : Nat) :
    ∃ timeline, renderer.splicedFirst notes renders count = .ok timeline ∧
      renderer.splice notes renders =
        (renderer.spliceFrom notes count timeline (renders.drop count)).map Draft.freeze := by
  have hformat := format_of_renders (WorkerPool.inOrder_eq_ok_iff.mp hrenders).2
  have hfirst : renderer.splicedFirst notes renders count = .ok _ :=
    spliceFrom_of_format _ 0 fun render hrender => hformat render (List.mem_of_mem_take hrender)
  refine ⟨_, hfirst, ?_⟩
  rw [renderer.splice_eq_splicedFirst notes renders count, hfirst, Except.ok_bind]

/-- All notes but the one and that before it have the same renders in both timelines. -/
theorem DifferAt.renders_eq (h : DifferAt notes notes' place)
    {audio : Sample α → α → Except (RenderError α) (Segment α)} {renders renders' : List (Segment α)}
    (hrenders : WorkerPool.inOrder notes.length (renderer.noteRender audio notes) = .ok renders)
    (hrenders' : WorkerPool.inOrder notes'.length (renderer.noteRender audio notes') = .ok renders')
    (hindex : index ≠ place) (hnext : index + 1 ≠ place) : renders'[index]? = renders[index]? := by
  obtain ⟨hlength, hget⟩ := WorkerPool.inOrder_eq_ok_iff.mp hrenders
  obtain ⟨hlength', hget'⟩ := WorkerPool.inOrder_eq_ok_iff.mp hrenders'
  have hsame : renders'.length = renders.length := by
    rw [hlength, hlength', h.length]
  rcases Nat.lt_or_ge index renders.length with hlt | hge
  · have hrender := noteRender_congr (h.noteAt hindex) (h.nextTiming? renderer hnext) audio
    rw [hget index hlt, hget' index (hsame ▸ hlt)] at hrender
    rw [List.getElem?_eq_getElem hlt, List.getElem?_eq_getElem (hsame ▸ hlt),
      Except.ok.inj hrender]
  · rw [List.getElem?_eq_none hge, List.getElem?_eq_none (hsame ▸ hge)]

/-- If the engine gives the same audio for a sample and a note number every time, a note that two
timelines have at a place, with the same timing after it, has the same render in both, or the same
error. So two timelines that differ in one note have the same renders, but for that of the note and
of the one before it, and what is spliced of the renders before these two is the same timeline, from
which splicing goes on in both. -/
theorem lookahead_is_one_timing [Monad m] [LawfulMonad m] (renderer : Renderer m α)
    {audio : Sample α → α → Except (RenderError α) (Segment α)}
    (hengine : renderer.engine.Sings renderer.bank audio) :
    (∀ (notes notes' : List (Note α)) (index : Nat), index < notes.length →
      notes'[index]? = notes[index]? →
      renderer.nextTiming? notes' index = renderer.nextTiming? notes index →
      renderer.renderNote notes' index = renderer.renderNote notes index ∧
      ∃ result, Gives (renderer.renderNote notes index).run result ∧
        Gives (renderer.renderNote notes' index).run result) ∧
    ∀ (notes notes' : List (Note α)) (place : Nat), DifferAt notes notes' place →
      (∀ index, index ≠ place → index + 1 ≠ place →
        renderer.renderNote notes' index = renderer.renderNote notes index ∧
        ∃ result, Gives (renderer.renderNote notes index).run result ∧
          Gives (renderer.renderNote notes' index).run result) ∧
      (∀ workers schedule,
        Gives (({ renderer with workers } : Renderer m α).renderNotes notes schedule).run
            (WorkerPool.inOrder notes.length (renderer.noteRender audio notes)) ∧
          Gives (({ renderer with workers } : Renderer m α).renderNotes notes' schedule).run
            (WorkerPool.inOrder notes'.length (renderer.noteRender audio notes'))) ∧
      ∀ renders renders',
        WorkerPool.inOrder notes.length (renderer.noteRender audio notes) = .ok renders →
        WorkerPool.inOrder notes'.length (renderer.noteRender audio notes') = .ok renders' →
        ∃ timeline,
          (renderer.splicedFirst notes renders (place - 1) = .ok timeline ∧
            renderer.splice notes renders =
              (renderer.spliceFrom notes (place - 1) timeline (renders.drop (place - 1))).map
                Draft.freeze) ∧
          renderer.splicedFirst notes' renders' (place - 1) = .ok timeline ∧
            renderer.splice notes' renders' =
              (renderer.spliceFrom notes' (place - 1) timeline (renders'.drop (place - 1))).map
                Draft.freeze := by
  constructor
  · intro notes notes' index hinside hnote hnext
    exact gives_congr (noteAt_of_inside hinside hnote) hnext hengine
  · intro notes notes' place h
    refine ⟨?_, ?_, ?_⟩
    · intro index hindex hnext
      exact gives_congr (h.noteAt hindex) (h.nextTiming? renderer hnext) hengine
    · intro workers schedule
      exact ⟨has_renderNotes .given hengine notes workers schedule,
        has_renderNotes .given hengine notes' workers schedule⟩
    · intro renders renders' hrenders hrenders'
      obtain ⟨timeline, hfirst, hsplice⟩ := exists_splicedFirst hrenders (place - 1)
      obtain ⟨timeline', hfirst', hsplice'⟩ := exists_splicedFirst hrenders' (place - 1)
      have htimelines := h.splicedFirst_eq renderer fun index hindex =>
        h.renders_eq hrenders hrenders' (by omega) (by omega)
      obtain rfl := Except.ok.inj (hfirst'.symm.trans (htimelines.trans hfirst))
      exact ⟨_, ⟨hfirst, hsplice⟩, hfirst', hsplice'⟩

/-! ## Notes of a silent sample -/

/-- The renderer of a silent sample that does not blend. -/
noncomputable def quiet : Renderer Id ℝ :=
  silent.withCrossfade (0 : ℕ)

/-- A note of half a second, sung by the silent renderer, is as long as it must sound. -/
theorem exists_render_quiet {notes : List (Note ℝ)} {index actual : Nat}
    (hnote : notes[index]? = some (plainNote 500)) (hlong : 300 ≤ actual)
    (hactual : (50 : ℝ) + (500 : ℕ) +
      (quiet.overlapAt notes (index + 1) - quiet.preutteranceAt notes (index + 1)) = actual) :
    ∃ render, quiet.noteRender (fun _ _ => .ok plainAudio) notes index = .ok render ∧
      render.frames = actual := by
  have hkeeps : quiet.engine.Keeps quiet.format (Engine.Only fun _ _ => .ok plainAudio) :=
    keeps_withCrossfade keeps_silent _
  have hcrossfade : quiet.crossfade = 0 := (crossfade_silent 0).trans Nat.cast_zero
  obtain ⟨consonant, vowel, -, ⟨hconsonant, hframes⟩, ⟨hvowel, hvowelFrames⟩, hcut⟩ :=
    exists_cut_silent 0 hnote
  change quiet.Cut _ _ _ _ _ _ (50 + (500 : ℕ) +
    (quiet.overlapAt notes (index + 1) - quiet.preutteranceAt notes (index + 1))) at hcut
  rw [hactual] at hcut
  obtain ⟨render, hfit⟩ :=
    exists_fit_silent (Nat.zero_le _) hconsonant hframes hvowel hvowelFrames (500 : ℕ) actual
  refine ⟨render, noteRender_of_fit hkeeps hcut hfit, ?_⟩
  rw [frames_of_long_plain hcut hkeeps hfit ?_ hcrossfade]
  · exact framesIn_silent 0 actual
  · rw [Segment.duration_of_thousand hconsonant, Segment.duration_of_thousand hvowel, hframes,
      hvowelFrames]
    exact_mod_cast hlong

/-- A fifth of a second of rest, half a second of song, and another note. -/
noncomputable def songBefore (last : Note ℝ) : List (Note ℝ) :=
  [.rest (200 : ℕ), plainNote 500, last]

/-- The renders of the rest, the song and the other note, if that has one. -/
theorem renders_songBefore {last : Note ℝ} {song final : Segment ℝ}
    (hsong : quiet.noteRender (fun _ _ => .ok plainAudio) (songBefore last) 1 = .ok song)
    (hfinal : quiet.noteRender (fun _ _ => .ok plainAudio) (songBefore last) 2 = .ok final) :
    WorkerPool.inOrder 3 (quiet.noteRender (fun _ _ => .ok plainAudio) (songBefore last)) =
      .ok [.silence quiet.format (200 : ℕ), song, final] := by
  refine WorkerPool.inOrder_eq_ok_iff.mpr ⟨rfl, ?_⟩
  rintro (_ | _ | _ | index) hindex
  · exact noteRender_rest rfl
  · exact hsong
  · exact hfinal
  · simp only [List.length_cons, List.length_nil] at hindex
    omega

/-- Half a second of song that starts 50 ms early lasts 530 ms before a note that starts as early
and overlaps it by 30 ms, whatever that note is, and 550 ms before a rest. The rest before the song
does not change. -/
theorem next_timing_alone_matters :
    let again := songBefore (plainNote 500)
    let other := songBefore (.sung "unknown" (72 : ℕ) (100 : ℕ) (some (50 : ℕ)) (some (30 : ℕ)))
    let alone := songBefore (.rest (100 : ℕ))
    quiet.engine.Sings quiet.bank (fun _ _ => .ok plainAudio) ∧ DifferAt again alone 2 ∧
    ∃ song longer : Segment ℝ, song.frames = 530 ∧ longer.frames = 550 ∧
      Gives (quiet.renderNote again 1).run (.ok song) ∧
      Gives (quiet.renderNote other 1).run (.ok song) ∧
      Gives (quiet.renderNote alone 1).run (.ok longer) ∧
      quiet.renderNote alone 0 = quiet.renderNote again 0 ∧
      ∃ renders renders' timeline,
        WorkerPool.inOrder 3 (quiet.noteRender (fun _ _ => .ok plainAudio) again) = .ok renders ∧
        WorkerPool.inOrder 3 (quiet.noteRender (fun _ _ => .ok plainAudio) alone) = .ok renders' ∧
        quiet.splicedFirst again renders 1 = .ok timeline ∧
        quiet.splicedFirst alone renders' 1 = .ok timeline := by
  intro again other alone
  have hsings : quiet.engine.Sings quiet.bank (fun _ _ => .ok plainAudio) :=
    sings_withCrossfade sings_silent _
  have hdiffer : DifferAt again alone 2 := by
    refine ⟨rfl, ?_⟩
    rintro (_ | _ | _ | index) hindex
    · rfl
    · rfl
    · exact absurd rfl hindex
    · rfl
  have hnext : quiet.timingAt? again 2 = some ⟨(50 : ℕ), (30 : ℕ)⟩ := timing_plainNote 0 500
  have hend : quiet.timingAt? again 3 = none := rfl
  have hrest : quiet.timingAt? alone 2 = none := rfl
  obtain ⟨song, hsong, hsongFrames⟩ :=
    exists_render_quiet (rfl : again[1]? = some (plainNote 500)) (by norm_num : 300 ≤ 530)
      (by norm_num [overlapAt, preutteranceAt, hnext])
  obtain ⟨final, hfinal, -⟩ :=
    exists_render_quiet (rfl : again[2]? = some (plainNote 500)) (by norm_num : 300 ≤ 550)
      (by norm_num [overlapAt, preutteranceAt, hend])
  obtain ⟨longer, hlonger, hlongerFrames⟩ :=
    exists_render_quiet (rfl : alone[1]? = some (plainNote 500)) (by norm_num : 300 ≤ 550)
      (by norm_num [overlapAt, preutteranceAt, hrest])
  have hsilence : quiet.noteRender (fun _ _ => .ok plainAudio) alone 2 =
      .ok (.silence quiet.format (100 : ℕ)) := noteRender_rest rfl
  obtain ⟨hsame, hdiffering⟩ := lookahead_is_one_timing quiet hsings
  obtain ⟨hother, -⟩ := hsame again other 1 (by decide) rfl (timing_plainNote 0 500).symm
  obtain ⟨hrenders, -, hspliced⟩ := hdiffering again alone 2 hdiffer
  obtain ⟨timeline, ⟨hfirst, -⟩, hfirst', -⟩ :=
    hspliced _ _ (renders_songBefore hsong hfinal) (renders_songBefore hlonger hsilence)
  have hgives := has_renderNote .given hsings again 1
  refine ⟨hsings, hdiffer, song, longer, hsongFrames, hlongerFrames, hsong ▸ hgives, ?_,
    hlonger ▸ has_renderNote .given hsings alone 1, (hrenders 0 (by decide) (by decide)).1, _, _,
    timeline, renders_songBefore hsong hfinal, renders_songBefore hlonger hsilence, hfirst, hfirst'⟩
  rw [hother]
  exact hsong ▸ hgives

end SingingVoice.Renderer
