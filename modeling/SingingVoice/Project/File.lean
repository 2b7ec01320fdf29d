import SingingVoice.Note.Value
import SingingVoice.Project.Config

/-!
# Project files

A project file holds the settings of a project and its tracks under their names. The tracks are in
the order of the names, and no two have one name: where a document names a track twice, the later
one counts.
-/

namespace SingingVoice

/-- A named timeline. -/
structure Track (α : Type) where
  /-- The name. -/
  name : String
  /-- The timeline. -/
  notes : List (Note α)
deriving BEq, DecidableEq, Repr, Inhabited

namespace Track

variable {α : Type}

/-- The track comes before another in the order of names. -/
def Before (first second : Track α) : Prop :=
  first.name < second.name

/-- Puts a track into its place among sorted tracks, in place of one with the same name. -/
def insertSorted (track : Track α) : List (Track α) → List (Track α)
  | [] => [track]
  | head :: rest =>
    if track.name < head.name then track :: head :: rest
    else if head.name < track.name then head :: insertSorted track rest
    else track :: rest

theorem mem_insertSorted {track other : Track α} {tracks : List (Track α)}
    (h : other ∈ insertSorted track tracks) : other = track ∨ other ∈ tracks := by
  induction tracks with
  | nil => simpa [insertSorted] using h
  | cons head rest ih =>
    simp only [insertSorted] at h
    split at h
    · simpa using h
    · split at h
      · rcases List.mem_cons.1 h with h | h
        · simp [h]
        · rcases ih h with h | h <;> simp [h]
      · rcases List.mem_cons.1 h with h | h <;> simp [h]

theorem pairwise_insertSorted {track : Track α} {tracks : List (Track α)}
    (h : tracks.Pairwise Before) : (insertSorted track tracks).Pairwise Before := by
  induction tracks with
  | nil => simp [insertSorted]
  | cons head rest ih =>
    obtain ⟨hhead, hrest⟩ := List.pairwise_cons.1 h
    simp only [insertSorted]
    split
    · rename_i hlt
      refine List.pairwise_cons.2 ⟨fun other hother => ?_, h⟩
      rcases List.mem_cons.1 hother with rfl | hother
      · exact hlt
      · exact String.lt_trans hlt (hhead other hother)
    · split
      · rename_i hgt
        refine List.pairwise_cons.2 ⟨fun other hother => ?_, ih hrest⟩
        rcases mem_insertSorted hother with rfl | hother
        · exact hgt
        · exact hhead other hother
      · rename_i hlt hgt
        have heq : head.name = track.name :=
          String.le_antisymm (String.not_lt.1 hlt) (String.not_lt.1 hgt)
        refine List.pairwise_cons.2 ⟨fun other hother => ?_, hrest⟩
        have := hhead other hother
        simpa [Before, heq] using this

end Track

/-- The settings of a project and its tracks, in the order of their names. -/
structure ProjectFile (α : Type) where
  /-- The settings. -/
  config : Config α
  /-- The tracks. -/
  tracks : List (Track α)
  /-- Every track comes before the later ones. -/
  sorted : tracks.Pairwise Track.Before

namespace ProjectFile

variable {α : Type}

/-- The file without tracks. -/
def ofConfig (config : Config α) : ProjectFile α :=
  ⟨config, [], .nil⟩

/-- The file with one more track, in place of one with the same name. -/
def insert (file : ProjectFile α) (track : Track α) : ProjectFile α :=
  ⟨file.config, track.insertSorted file.tracks, Track.pairwise_insertSorted file.sorted⟩

/-- The file of tracks in any order. -/
def ofTracks (config : Config α) (tracks : List (Track α)) : ProjectFile α :=
  tracks.foldl insert (ofConfig config)

/-- The entry of the tracks. -/
def tracksKey : String :=
  "tracks"

variable [Numeral α]

/-- The timeline of a track as a value. -/
def notesValue (notes : List (Note α)) : Value :=
  .list (notes.map Note.toValue)

/-- The file as a value. -/
def toValue (file : ProjectFile α) : Value :=
  .record (file.config.entries ++
    [(tracksKey, .record (file.tracks.map fun track => (track.name, notesValue track.notes)))])

/-- The file as a document. -/
def toYaml (file : ProjectFile α) : String :=
  file.toValue.yaml

/-- The nesting that is left for the notes of a list that is so deep. -/
def depthBelow (depth : Nat) : Nat :=
  Yaml.Node.maxDepth - depth

variable [Scalar α]

/-- Reads the value of a note whose parts may be nested at most so deep. The kind of the note is the
text of a scalar, whatever else the scalar may mean. -/
def noteValue (depth : Nat) (node : Yaml.Node) : Yaml.Reading Value := do
  match ← node.follow with
  | .list tag? (kind :: items) =>
    Yaml.Node.refuseLocal tag?
    return .list (.text (← kind.text) :: (← items.mapM (Yaml.Node.value depth)))
  | .map tag? entries =>
    Yaml.Node.refuseLocal tag?
    return .map (← entries.mapM fun (key, node) => do
      let key ← key.value depth
      if Note.isKindKey key then return (key, .text (← node.text))
      return (key, ← node.value depth))
  | _ => failure

/-- Reads a timeline in a node that is inside so many collections. -/
def notesOfNode (depth : Nat) (node : Yaml.Node) : Yaml.Reading (List (Note α)) := do
  let values ← (← node.items).mapM (noteValue (depthBelow (depth + 2)))
  (Note.listOfValues values).toOption

/-- Reads a timeline in a document. -/
def notesOfYaml (text : String) : Except (RenderError α) (List (Note α)) :=
  match (Yaml.Document.ofText? text).bind fun doc => doc.read? (notesOfNode 0 doc.root) with
  | some notes => .ok notes
  | none => .error .malformed

/-- Reads the tracks of a file. -/
def tracksOfNode (node : Yaml.Node) : Yaml.Reading (List (Track α)) := do
  (← Config.withTextKeys (← node.entries)).mapM fun (name, node) =>
    return ⟨name, ← notesOfNode 2 node⟩

/-- Reads the entries of a file. There is at most one entry for the tracks; the meaning of all
others is found out, but only settings are used. -/
def ofNode (default : Config α) (node : Yaml.Node) : Yaml.Reading (ProjectFile α) := do
  let entries ← Config.withTextKeys (← node.entries)
  let tracks ← match entries.filter fun (key, _) => key = tracksKey with
    | [] => pure []
    | [(_, node)] => tracksOfNode node
    | _ => failure
  let values ← (entries.filter fun (key, _) => key ≠ tracksKey).mapM fun (key, node) =>
    return (key, ← node.value (depthBelow 1))
  return ofTracks (← Config.ofValues? default values) tracks

/-- Reads a file and checks its settings. -/
def ofYaml (default : Config α) (text : String) : Except (RenderError α) (ProjectFile α) := do
  match (Yaml.Document.ofText? text).bind fun doc => doc.read? (ofNode default doc.root) with
  | none => throw .malformed
  | some file =>
    file.config.validate.mapError .config
    return file

end ProjectFile

end SingingVoice
