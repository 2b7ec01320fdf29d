import SingingVoice.Proofs.Project.Rendering
import SingingVoice.Proofs.Project.Tracks
import SingingVoice.Proofs.Segment.Mixing

/-!
# Projects that are saved and read again

A file keeps the tracks of a project in the order of their names, so a project that is read from its
file has the same tracks in another order. In exact arithmetic the mix does not depend on that order
(`Project.rendering_perm`). The main theorem is `Project.saved_project_reloads`.
-/

namespace SingingVoice

/-- The audio of a timeline is in the format of the renderer. -/
theorem Renderer.format_timelineRender {m : Type → Type} {α : Type} [Scalar α] [Resampler α]
    {renderer : Renderer m α} {audio : Sample α → α → Except (RenderError α) (Segment α)}
    {notes : List (Note α)} {timeline : Segment α}
    (h : renderer.timelineRender audio notes = .ok timeline) :
    timeline.format = renderer.format := by
  have hfrom : ∀ (renders : List (Segment α)) (index : Nat) (start final : Draft α),
      renderer.spliceFrom notes index start renders = .ok final → final.format = start.format := by
    intro renders
    induction renders with
    | nil =>
      intro index start final hfinal
      rw [← Except.ok.inj hfinal]
    | cons render rest ih =>
      intro index start final hfinal
      obtain ⟨conformed, -, hrest⟩ := Except.bind_eq_ok.mp hfinal
      have hformat := ih _ (renderer.spliceOne notes start index conformed) _ hrest
      exact hformat
  obtain ⟨renders, -, hsplice⟩ := Except.bind_eq_ok.mp h
  obtain ⟨final, hfinal, rfl⟩ := Except.map_eq_ok.mp hsplice
  exact hfrom renders 0 _ final hfinal

namespace Project

variable {m : Type → Type} {α : Type} [Scalar α] [Resampler α] {project reloaded : Project α}
  {bank : Voicebank α} {engine : Engine m α}
  {audio : Sample α → α → Except (RenderError α) (Segment α)}
  {prepared : Except (RenderError α) Unit} {mix : Segment α}

/-- The result of rendering a project if that of preparing the engine and the audio of samples are
known. -/
def rendering (project : Project α) (bank : Voicebank α) (engine : Engine m α)
    (prepared : Except (RenderError α) Unit)
    (audio : Sample α → α → Except (RenderError α) (Segment α)) :
    Except (RenderError α) (Segment α) :=
  prepared >>= fun _ => project.trackRenders bank engine audio >>= project.mixdown

/-- The renders of the tracks are those of their notes, one track after another. -/
theorem trackRenders_eq_mapM : project.trackRenders bank engine audio =
    project.tracks.mapM fun track =>
      (project.sequentialRenderer bank engine).timelineRender audio track.notes := by
  have hnotes : (List.range project.tracks.length).map project.notesAt =
      project.tracks.map Track.notes := by
    refine List.ext_getElem (by simp) fun index hindex hindex' => ?_
    rw [List.length_map] at hindex'
    simp [notesAt, hindex']
  have hmap : ∀ {β : Type} (xs : List β) (notes : β → List (Note α)),
      (xs.mapM fun x => (project.sequentialRenderer bank engine).timelineRender audio (notes x)) =
        (xs.map notes).mapM ((project.sequentialRenderer bank engine).timelineRender audio) := by
    intro β xs notes
    rw [List.mapM_map]
    rfl
  show (List.range project.tracks.length).mapM _ = _
  rw [hmap, ← hnotes, ← hmap]
  rfl

/-- If every track has audio, so has the mix. -/
theorem exists_rendering (hprepared : prepared = .ok ())
    (htracks : ∀ track ∈ project.tracks, ∃ timeline,
      (project.sequentialRenderer bank engine).timelineRender audio track.notes = .ok timeline) :
    ∃ mix, project.rendering bank engine prepared audio = .ok mix := by
  obtain ⟨renders, hrenders⟩ :
      ∃ renders, project.trackRenders bank engine audio = .ok renders := by
    rw [trackRenders_eq_mapM]
    exact Except.exists_mapM_eq_ok htracks
  have hformat : ∀ render ∈ renders, render.format = project.config.format := by
    intro render hrender
    rw [trackRenders_eq_mapM] at hrenders
    obtain ⟨track, -, htimeline⟩ := Except.exists_of_mem_mapM hrenders hrender
    exact Renderer.format_timelineRender htimeline
  have hconform : renders.mapM (·.conform project.config.format) = .ok renders := by
    rw [Except.mapM_eq_ok_iff, List.forall₂_same]
    intro render hrender
    exact Segment.conform_self (hformat render hrender)
  rw [rendering, hprepared, Except.ok_bind, hrenders, Except.ok_bind, mixdown, Segment.mix,
    hconform]
  exact ⟨_, rfl⟩

/-- In exact arithmetic the order of the tracks does not matter to the mix. -/
theorem rendering_perm (hexact : ∀ x y z : α, x + y + z = x + z + y)
    (hconfig : reloaded.config = project.config) (hperm : project.tracks.Perm reloaded.tracks)
    (h : project.rendering bank engine prepared audio = .ok mix) :
    reloaded.rendering bank engine prepared audio = .ok mix := by
  have hrenderer : reloaded.sequentialRenderer bank engine =
      project.sequentialRenderer bank engine := by
    rw [sequentialRenderer, hconfig]
    rfl
  obtain ⟨_, hprepared, h⟩ := Except.bind_eq_ok.mp h
  obtain ⟨renders, hrenders, hmix⟩ := Except.bind_eq_ok.mp h
  rw [trackRenders_eq_mapM] at hrenders
  obtain ⟨renders', hrenders', hperm'⟩ := Except.mapM_perm hperm hrenders
  have hmix' := Segment.mix_perm hexact hperm' (Except.mapError_eq_ok.mp hmix)
  refine Except.bind_eq_ok.mpr ⟨(), hprepared, Except.bind_eq_ok.mpr ⟨renders', ?_, ?_⟩⟩
  · rw [trackRenders_eq_mapM, hrenderer]
    exact hrenders'
  · rw [mixdown, hconfig]
    exact Except.mapError_eq_ok.mpr hmix'

/-- Calls to add tracks to a new project leave different names and the tracks in the order of the
calls that brought them; a call with a new name puts its track behind the others, and a call with a
name that is taken is refused and changes nothing. The file of the project has all tracks, and is
read as the project with its tracks in the order of their names. Every file is read, and is the file
of the project that it is read as. If the engine is deterministic and sums do not depend on the
order of what is added, the project has the same mix as before, for any schedules. -/
theorem saved_project_reloads [Monad m] [LawfulMonad m] (config : Config α)
    (calls : List (Track α)) :
    let project := (ofConfig config).afterCalls calls
    let reloaded : Project α := ⟨config, Track.sortByName project.tracks⟩
    (project.config = config ∧ (project.tracks.map Track.name).Nodup ∧
      project.tracks.Sublist calls) ∧
    (∀ track : Track α, track.name ∉ calls.map Track.name →
      project.addTrack track.name track.notes = .ok (project.afterCall track) ∧
      project.afterCall track = ⟨config, project.tracks ++ [track]⟩) ∧
    (∀ track : Track α, track.name ∈ calls.map Track.name →
      project.addTrack track.name track.notes = .error (.track track.name .duplicateName) ∧
      project.afterCall track = project) ∧
    project.toFile.tracks.Perm project.tracks ∧
    ofFile project.toFile = .ok reloaded ∧
    (∀ file : ProjectFile α, ∃ read : Project α, ofFile file = .ok read ∧ read.toFile = file) ∧
    ∀ (bank : Voicebank α) (engine : Engine m α) (prepared : Except (RenderError α) Unit)
      (audio : Sample α → α → Except (RenderError α) (Segment α)),
      Gives (engine.setup bank).run prepared → engine.Sings bank audio →
      (∀ x y z : α, x + y + z = x + z + y) →
      (∀ schedule schedules, Gives (project.render bank engine schedule schedules).run
        (project.rendering bank engine prepared audio)) ∧
      (∀ schedule schedules, Gives (reloaded.render bank engine schedule schedules).run
        (reloaded.rendering bank engine prepared audio)) ∧
      ∀ mix, project.rendering bank engine prepared audio = .ok mix ↔
        reloaded.rendering bank engine prepared audio = .ok mix := by
  intro project reloaded
  have hbuilt : Built config calls project := built_afterCalls config calls
  have hsorted : project.toFile.tracks = reloaded.tracks :=
    ProjectFile.tracks_ofTracks hbuilt.nodup_names
  have hperm : reloaded.tracks.Perm project.tracks := Track.perm_sortByName project.tracks
  refine ⟨⟨hbuilt.config_eq, hbuilt.nodup_names, hbuilt.sublist⟩, ?_, ?_, ?_, ?_, ?_, ?_⟩
  · intro track hnew
    rw [← hbuilt.mem_names] at hnew
    rw [addTrack_of_new hnew, afterCall_of_new hnew, hbuilt.config_eq]
    exact ⟨rfl, rfl⟩
  · intro track htaken
    rw [← hbuilt.mem_names] at htaken
    exact ⟨addTrack_of_taken htaken, afterCall_of_taken htaken⟩
  · rw [hsorted]
    exact hperm
  · rw [ofFile_eq, hsorted, toFile, ProjectFile.config_ofTracks, hbuilt.config_eq]
  · intro file
    exact ⟨⟨file.config, file.tracks⟩, ofFile_eq file, file.ofTracks_tracks⟩
  · intro bank engine prepared audio hsetup hengine hexact
    refine ⟨has_render_project project .given hsetup hengine,
      has_render_project reloaded .given hsetup hengine, fun mix => ⟨?_, ?_⟩⟩
    · exact rendering_perm hexact hbuilt.config_eq.symm hperm.symm
    · exact rendering_perm hexact hbuilt.config_eq hperm

/-- Calls in exact arithmetic: a lead, a shorter harmony, and a second lead. -/
noncomputable def duetCalls : List (Track ℝ) :=
  [⟨"lead", [.rest (100 : ℕ)]⟩, ⟨"harmony", [.rest (50 : ℕ)]⟩, ⟨"lead", []⟩]

/-- An engine that counts its calls and tunes samples to silence. -/
def quiet : Engine (StateM Nat) ℝ where
  setup := fun _ => return ()
  pitch := fun _ _ _ => do
    modify (· + 1)
    return Segment.empty (.mono 1000)
  stretch := fun vowel _ => .ok vowel

/-- The second lead is refused. The project is read from its file with the harmony before the lead,
and has the same mix as before. -/
theorem duet_reloads :
    let config : Config ℝ := ⟨"", "", "", 1000, 2, .loop, 0⟩
    let project := (ofConfig config).afterCalls duetCalls
    let reloaded : Project ℝ :=
      ⟨config, [⟨"harmony", [.rest (50 : ℕ)]⟩, ⟨"lead", [.rest (100 : ℕ)]⟩]⟩
    project.tracks = [⟨"lead", [.rest (100 : ℕ)]⟩, ⟨"harmony", [.rest (50 : ℕ)]⟩] ∧
    project.addTrack "lead" [] = .error (.track "lead" .duplicateName) ∧
    ofFile project.toFile = .ok reloaded ∧
    ∃ mix, ∀ schedule schedules,
      Gives (project.render Renderer.plainBank quiet schedule schedules).run (.ok mix) ∧
      Gives (reloaded.render Renderer.plainBank quiet schedule schedules).run (.ok mix) := by
  intro config project reloaded
  have htracks : project.tracks = [⟨"lead", [.rest (100 : ℕ)]⟩, ⟨"harmony", [.rest (50 : ℕ)]⟩] := rfl
  have hsorted : Track.sortByName project.tracks = reloaded.tracks := by
    refine (Track.eq_sortByName ?_ (.swap _ _ _)).symm
    rw [List.pairwise_pair]
    show "harmony" < "lead"
    decide
  have hsetup : Gives (quiet.setup Renderer.plainBank).run (.ok ()) :=
    gives_state_iff.mpr fun _ => rfl
  have hengine : quiet.Sings Renderer.plainBank fun _ _ => .ok (Segment.empty (.mono 1000)) :=
    fun _ _ => gives_state_iff.mpr fun _ => rfl
  obtain ⟨-, -, hrefused, -, hread, -, hrender⟩ :=
    saved_project_reloads (m := StateM Nat) config duetCalls
  obtain ⟨hbefore, hafter, hmix⟩ := hrender Renderer.plainBank quiet (.ok ()) _ hsetup hengine
    fun x y z => add_right_comm x y z
  obtain ⟨mix, hmixed⟩ : ∃ mix, project.rendering Renderer.plainBank quiet (.ok ())
      (fun _ _ => .ok (Segment.empty (.mono 1000))) = .ok mix := by
    refine exists_rendering rfl fun track htrack => Renderer.timelineRender_ok_iff.mpr ?_
    have hrest : ∃ duration, track.notes = [.rest duration] := by
      rw [htracks] at htrack
      rcases List.mem_pair.mp htrack with rfl | rfl <;> exact ⟨_, rfl⟩
    obtain ⟨duration, hnotes⟩ := hrest
    intro index hindex
    rw [hnotes] at hindex ⊢
    obtain rfl : index = 0 := Nat.lt_one_iff.mp hindex
    exact ⟨_, Renderer.noteRender_rest rfl⟩
  rw [hsorted] at hread hafter hmix
  refine ⟨htracks, (hrefused ⟨"lead", []⟩ (by decide)).1, hread, mix, fun schedule schedules => ?_⟩
  rw [← hmixed]
  refine ⟨hbefore schedule schedules, ?_⟩
  rw [hmixed, ← (hmix mix).mp hmixed]
  exact hafter schedule schedules

end Project

end SingingVoice
