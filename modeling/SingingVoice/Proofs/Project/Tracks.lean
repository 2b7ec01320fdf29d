import Mathlib
import SingingVoice.Project.Basic

/-!
# Tracks of projects and of files

A project keeps its tracks in the order in which they were added, and a file keeps them in the order
of their names. What a sequence of calls to add tracks leaves is told by `Project.afterCalls`: the
names stay different, whatever names the calls give. So a file takes over all tracks of such a
project (`ProjectFile.tracks_ofTracks`), and reading a file adds all of its tracks
(`Project.ofFile_eq`).
-/

namespace SingingVoice

variable {α : Type}

namespace Track

variable {track : Track α} {tracks : List (Track α)}

/-! ## The order of names -/

/-- Tracks in the order of their names have different names. -/
theorem nodup_names (h : tracks.Pairwise Before) : (tracks.map name).Nodup := by
  rw [List.nodup_iff_pairwise_ne, List.pairwise_map]
  exact h.imp fun hbefore => ne_of_lt hbefore

/-- A track with a new name is put among the others, and all of them are kept. -/
theorem perm_insertSorted (hnew : ∀ other ∈ tracks, other.name ≠ track.name) :
    (insertSorted track tracks).Perm (track :: tracks) := by
  induction tracks with
  | nil => exact .refl _
  | cons head rest ih =>
    have hhead : head.name ≠ track.name := hnew head List.mem_cons_self
    have hrest : ∀ other ∈ rest, other.name ≠ track.name := by
      intro other hother
      exact hnew other (List.mem_cons_of_mem _ hother)
    unfold insertSorted
    split
    case isTrue => exact .refl _
    case isFalse hlt =>
      have hgt : head.name < track.name := (lt_or_gt_of_ne hhead).resolve_right hlt
      rw [if_pos hgt]
      exact ((ih hrest).cons head).trans (.swap track head rest)

/-- The tracks in the order of their names. -/
def sortByName (tracks : List (Track α)) : List (Track α) :=
  tracks.mergeSort fun first second => first.name ≤ second.name

theorem perm_sortByName (tracks : List (Track α)) : (sortByName tracks).Perm tracks :=
  List.mergeSort_perm _ _

theorem pairwise_sortByName (hnames : (tracks.map name).Nodup) :
    (sortByName tracks).Pairwise Before := by
  have hsorted : (sortByName tracks).Pairwise fun first second => first.name ≤ second.name := by
    have h : (sortByName tracks).Pairwise fun first second =>
        decide (first.name ≤ second.name) = true := by
      refine List.pairwise_mergeSort ?_ ?_ tracks
      · intro first second third hfirst hsecond
        exact decide_eq_true (le_trans (of_decide_eq_true hfirst) (of_decide_eq_true hsecond))
      · intro first second
        simpa using le_total first.name second.name
    exact h.imp fun hle => of_decide_eq_true hle
  have hnames' : ((sortByName tracks).map name).Nodup :=
    ((perm_sortByName tracks).map name).nodup_iff.mpr hnames
  rw [List.nodup_iff_pairwise_ne, List.pairwise_map] at hnames'
  exact hsorted.imp₂ (fun _ _ hle hne => lt_of_le_of_ne hle hne) hnames'

/-- There is only one order by names. -/
theorem eq_sortByName {sorted : List (Track α)} (hsorted : sorted.Pairwise Before)
    (hperm : sorted.Perm tracks) : sorted = sortByName tracks := by
  have hnames : (tracks.map name).Nodup := (hperm.map name).nodup_iff.mp (nodup_names hsorted)
  refine List.Perm.eq_of_pairwise ?_ hsorted (pairwise_sortByName hnames)
    (hperm.trans (perm_sortByName tracks).symm)
  intro first second _ _ hfirst hsecond
  exact absurd hsecond (lt_asymm hfirst)

end Track

namespace ProjectFile

variable {config : Config α} {tracks : List (Track α)}

/-- Tracks with new names are taken into a file, and none of its own is lost. -/
theorem perm_foldl_insert (file : ProjectFile α)
    (hnames : ((file.tracks ++ tracks).map Track.name).Nodup) :
    (tracks.foldl insert file).tracks.Perm (file.tracks ++ tracks) := by
  induction tracks generalizing file with
  | nil =>
    rw [List.append_nil]
    exact .refl _
  | cons track rest ih =>
    have hmiddle : (track :: (file.tracks ++ rest)).Perm (file.tracks ++ track :: rest) :=
      List.perm_middle.symm
    have hinsert : (file.insert track).tracks.Perm (track :: file.tracks) := by
      refine Track.perm_insertSorted fun other hother heq => ?_
      have hnew : track.name ∉ (file.tracks ++ rest).map Track.name :=
        (List.nodup_cons.mp ((hmiddle.map Track.name).nodup_iff.mpr hnames)).1
      refine hnew (List.mem_map.mpr ⟨other, List.mem_append_left _ hother, heq⟩)
    have hstep : ((file.insert track).tracks ++ rest).Perm (file.tracks ++ track :: rest) :=
      (hinsert.append_right rest).trans hmiddle
    exact (ih _ ((hstep.map Track.name).nodup_iff.mpr hnames)).trans hstep

@[simp] theorem config_ofTracks (config : Config α) (tracks : List (Track α)) :
    (ofTracks config tracks).config = config := by
  have hkept : ∀ file : ProjectFile α, (tracks.foldl insert file).config = file.config := by
    induction tracks with
    | nil => exact fun _ => rfl
    | cons track rest ih => exact fun file => ih (file.insert track)
  exact hkept (ofConfig config)

/-- The file of tracks with different names holds all of them, in the order of the names. -/
theorem tracks_ofTracks (hnames : (tracks.map Track.name).Nodup) :
    (ofTracks config tracks).tracks = Track.sortByName tracks :=
  Track.eq_sortByName (ofTracks config tracks).sorted (perm_foldl_insert (ofConfig config) hnames)

/-- A file is that of its settings and its tracks. -/
theorem ofTracks_tracks (file : ProjectFile α) : ofTracks file.config file.tracks = file := by
  have htracks : (ofTracks file.config file.tracks).tracks = file.tracks := by
    rw [tracks_ofTracks (Track.nodup_names file.sorted)]
    exact (Track.eq_sortByName file.sorted (.refl _)).symm
  have hconfig := config_ofTracks file.config file.tracks
  cases hfile : ofTracks file.config file.tracks
  cases file
  rw [hfile] at htracks hconfig
  cases htracks
  cases hconfig
  rfl

end ProjectFile

namespace Project

variable {project : Project α} {name : String} {notes : List (Note α)}

/-! ## Calls to add tracks -/

theorem track?_isSome_iff : (project.track? name).isSome ↔ name ∈ project.tracks.map Track.name := by
  simp [track?]

/-- A track with a new name is put behind the others. -/
theorem addTrack_of_new (hnew : name ∉ project.tracks.map Track.name) :
    project.addTrack name notes =
      .ok { project with tracks := project.tracks ++ [⟨name, notes⟩] } := by
  rw [addTrack, if_neg]
  rwa [track?_isSome_iff]

/-- A name that is taken is refused. -/
theorem addTrack_of_taken (htaken : name ∈ project.tracks.map Track.name) :
    project.addTrack name notes = .error (.track name .duplicateName) := by
  rw [addTrack, if_pos (track?_isSome_iff.mpr htaken)]

/-- The project after a call to add a track, which may be refused. -/
def afterCall (project : Project α) (track : Track α) : Project α :=
  match project.addTrack track.name track.notes with
  | .ok project => project
  | .error _ => project

/-- The project after calls to add tracks, one after another. -/
def afterCalls (project : Project α) (calls : List (Track α)) : Project α :=
  calls.foldl afterCall project

variable {track : Track α} {calls : List (Track α)}

theorem afterCall_of_new (hnew : track.name ∉ project.tracks.map Track.name) :
    project.afterCall track = { project with tracks := project.tracks ++ [track] } := by
  rw [afterCall, addTrack_of_new hnew]

theorem afterCall_of_taken (htaken : track.name ∈ project.tracks.map Track.name) :
    project.afterCall track = project := by
  rw [afterCall, addTrack_of_taken htaken]

@[simp] theorem afterCalls_concat (project : Project α) (calls : List (Track α))
    (track : Track α) :
    project.afterCalls (calls ++ [track]) = (project.afterCalls calls).afterCall track := by
  simp [afterCalls]

/-- What calls to add tracks leave: the settings, different names, tracks in the order of the calls
that brought them, and the names of all calls. -/
structure Built (config : Config α) (calls : List (Track α)) (project : Project α) : Prop where
  config_eq : project.config = config
  nodup_names : (project.tracks.map Track.name).Nodup
  sublist : project.tracks.Sublist calls
  mem_names : ∀ name, name ∈ project.tracks.map Track.name ↔ name ∈ calls.map Track.name

/-- One more call keeps to it. -/
theorem Built.afterCall {config : Config α} (h : Built config calls project) (track : Track α) :
    Built config (calls ++ [track]) (project.afterCall track) := by
  by_cases htaken : track.name ∈ project.tracks.map Track.name
  · rw [afterCall_of_taken htaken]
    refine ⟨h.config_eq, h.nodup_names, h.sublist.trans (List.sublist_append_left _ _), ?_⟩
    intro name
    rw [h.mem_names, List.map_append, List.mem_append]
    refine ⟨.inl, fun hname => hname.elim id fun hlast => ?_⟩
    obtain rfl : name = track.name := by simpa using hlast
    exact (h.mem_names _).mp htaken
  · rw [afterCall_of_new htaken]
    refine ⟨h.config_eq, ?_, h.sublist.append (.refl _), ?_⟩
    · simp only [List.map_append]
      refine List.Nodup.append h.nodup_names (List.nodup_singleton _) ?_
      simpa using htaken
    · intro name
      simp [h.mem_names]

/-- Any sequence of calls on a new project keeps to it. -/
theorem built_afterCalls (config : Config α) (calls : List (Track α)) :
    Built config calls ((ofConfig config).afterCalls calls) := by
  induction calls using List.reverseRecOn with
  | nil => exact ⟨rfl, List.nodup_nil, .refl _, fun _ => Iff.rfl⟩
  | append_singleton calls track ih =>
    rw [afterCalls_concat]
    exact ih.afterCall track

/-! ## Reading files -/

/-- Tracks with new names are all added. -/
theorem foldlM_addTrack (project : Project α) {tracks : List (Track α)}
    (hnames : ((project.tracks ++ tracks).map Track.name).Nodup) :
    tracks.foldlM (fun project track => project.addTrack track.name track.notes) project =
      .ok { project with tracks := project.tracks ++ tracks } := by
  induction tracks generalizing project with
  | nil =>
    rw [List.append_nil]
    rfl
  | cons track rest ih =>
    have hnew : track.name ∉ project.tracks.map Track.name := by
      rw [List.map_append, List.nodup_append] at hnames
      intro hmem
      exact hnames.2.2 _ hmem _ List.mem_cons_self rfl
    rw [List.foldlM_cons, addTrack_of_new hnew]
    have hassoc : project.tracks ++ track :: rest = project.tracks ++ [track] ++ rest := by simp
    rw [hassoc] at hnames ⊢
    exact ih _ hnames

/-- Reading a file adds all of its tracks, in the order of their names. -/
theorem ofFile_eq (file : ProjectFile α) : ofFile file = .ok ⟨file.config, file.tracks⟩ :=
  foldlM_addTrack (ofConfig file.config) (Track.nodup_names file.sorted)

end Project

end SingingVoice
