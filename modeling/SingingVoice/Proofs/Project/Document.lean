import SingingVoice.Project.File
import SingingVoice.Proofs.Project.Settings
import SingingVoice.Proofs.Project.Tracks
import SingingVoice.Proofs.Result

/-!
# Project files that are written and read again

A project file is read back from its document, if the document is laid out as it was written
(`Value.LaidOut`) and no number of the file is without a value. What readers and writers do
differently is made up for: texts that were left out are restored by the standard settings, absent
overrides of notes are found to be absent, the settings are told from the tracks among the entries
of the file, and a pitch is read from a number although it might be a name. The main theorem is
`ProjectFile.saved_files_read_back`.
-/

namespace SingingVoice

open Yaml

/-! ## Notes -/

namespace Note

/-- The numbers of a note. -/
def numbers {α : Type} : Note α → List α
  | rest duration => [duration]
  | sung _ pitch duration preutterance overlap =>
    pitch :: duration :: preutterance.toList ++ overlap.toList

/-- The entries of a note. -/
def entries {α : Type} [Numeral α] : Note α → List (String × Value)
  | rest duration => [(kindKey, .text Kind.rest.name), (Field.duration.key, .ofNumeral duration)]
  | sung name pitch duration preutterance overlap =>
    [(kindKey, .text Kind.sung.name), (Field.duration.key, .ofNumeral duration),
      (Field.pitch.key, .ofNumeral pitch), (Field.name.key, .text name)] ++
      optionalEntry .preutterance preutterance ++ optionalEntry .overlap overlap

theorem toValue_eq {α : Type} [Numeral α] (note : Note α) : note.toValue = .record note.entries := by
  cases note <;> rfl

/-- What the value of a note is read as. -/
def reread {α : Type} [Numeral α] (note : Note α) : Value :=
  .map (note.entries.map fun entry => (.text entry.1, entry.2.reread))

variable {note : Note Double}

/-- An override that is absent has no entry, and one that is there is read as a decimal. -/
theorem reread_optionalEntry (field : Field) {override : Option Double}
    (hnumbers : ∀ x ∈ override, x.isNaN = false) :
    ∃ decimal : Option Decimal, override = decimal.map Numeral.ofDecimal ∧
      (optionalEntry field override).map (fun entry => (Value.text entry.1, entry.2.reread)) =
        (decimal.map fun d => (Value.text field.key, Value.float d)).toList := by
  cases override with
  | none => exact ⟨none, rfl, rfl⟩
  | some x =>
    obtain ⟨d, hd, -, rfl⟩ := Value.reread_ofNumeral (hnumbers x rfl)
    refine ⟨some d, rfl, ?_⟩
    show [(Value.text field.key, (Value.ofNumeral (Numeral.ofDecimal d : Double)).reread)] = _
    rw [hd]
    rfl

/-- A note is read back from what its value is read as. -/
theorem ofValue_reread (hnumbers : ∀ x ∈ note.numbers, x.isNaN = false) :
    ofValue note.reread = .ok note := by
  cases note with
  | rest duration =>
    obtain ⟨d, hd, -, rfl⟩ := Value.reread_ofNumeral (hnumbers duration (by simp [numbers]))
    simp only [reread, entries, List.map_cons, List.map_nil, hd]
    rfl
  | sung name pitch duration preutterance overlap =>
    simp only [numbers, List.forall_mem_cons, List.forall_mem_append, Option.mem_toList] at hnumbers
    obtain ⟨⟨hpitch, hduration, hpreutterance⟩, hoverlap⟩ := hnumbers
    obtain ⟨d, hd, -, rfl⟩ := Value.reread_ofNumeral hduration
    obtain ⟨p, hp, -, rfl⟩ := Value.reread_ofNumeral hpitch
    obtain ⟨first, rfl, hfirst⟩ := reread_optionalEntry .preutterance hpreutterance
    obtain ⟨second, rfl, hsecond⟩ := reread_optionalEntry .overlap hoverlap
    rw [reread, entries, List.map_append, List.map_append, hfirst, hsecond]
    simp only [List.map_cons, List.map_nil, hd, hp]
    -- Each of the overrides may be absent.
    cases first <;> cases second <;> rfl

theorem listOfValues_reread {notes : List (Note Double)}
    (hnumbers : ∀ note ∈ notes, ∀ x ∈ note.numbers, x.isNaN = false) :
    listOfValues (notes.map reread) = .ok notes := by
  induction notes with
  | nil => rfl
  | cons note notes ih =>
    rw [List.map_cons, listOfValues, ofValue_reread (hnumbers note List.mem_cons_self),
      Except.ok_bind, ih fun other hother => hnumbers other (List.mem_cons_of_mem _ hother)]
    rfl

/-- The kind of a note is written as a text, and every other entry is a scalar that is read. -/
theorem entries_read (hnumbers : ∀ x ∈ note.numbers, x.isNaN = false) :
    ∀ entry ∈ note.entries, entry.2.IsRead ∧
      (entry.1 = kindKey → ∃ string, entry.2 = .text string) := by
  have hfield : ∀ field : Field, field.key ≠ kindKey := by
    intro field
    cases field <;> decide
  have hread : ∀ (field : Field) (x : Double), x.isNaN = false →
      (Value.ofNumeral x).IsRead ∧
        (field.key = kindKey → ∃ string, Value.ofNumeral x = .text string) :=
    fun field x hx => ⟨Value.isRead_ofNumeral hx, fun h => absurd h (hfield field)⟩
  have hoptional : ∀ (field : Field) (override : Option Double),
      (∀ x ∈ override, x.isNaN = false) → ∀ entry ∈ optionalEntry field override,
        entry.2.IsRead ∧ (entry.1 = kindKey → ∃ string, entry.2 = .text string) := by
    intro field override hoverride entry hentry
    cases override with
    | none => cases hentry
    | some x =>
      obtain rfl := List.mem_singleton.mp hentry
      exact hread field x (hoverride x rfl)
  have htext : ∀ (key : Prop) (string : String), (Value.text string).IsRead ∧
      (key → ∃ string', Value.text string = .text string') :=
    fun _ string => ⟨Value.isRead_text string, fun _ => ⟨string, rfl⟩⟩
  cases note with
  | rest duration =>
    simp only [numbers, List.forall_mem_cons] at hnumbers
    simp only [entries, List.forall_mem_cons]
    exact ⟨htext _ _, hread .duration duration hnumbers.1, nofun⟩
  | sung name pitch duration preutterance overlap =>
    simp only [numbers, List.forall_mem_cons, List.forall_mem_append, Option.mem_toList] at hnumbers
    obtain ⟨⟨hpitch, hduration, hpreutterance⟩, hoverlap⟩ := hnumbers
    simp only [entries, List.forall_mem_append, List.forall_mem_cons]
    exact ⟨⟨⟨htext _ _, hread .duration duration hduration, hread .pitch pitch hpitch, htext _ _,
      nofun⟩, hoptional _ _ hpreutterance⟩, hoptional _ _ hoverlap⟩

end Note

/-! ## Files -/

namespace ProjectFile

variable {α : Type} {note : Note Double}

/-- The node of a note is read as its value. -/
theorem noteValue_node (hnumbers : ∀ x ∈ note.numbers, x.isNaN = false) (depth : Nat) :
    noteValue depth note.toValue.node = pure note.reread := by
  rw [note.toValue_eq, Value.node_record]
  simp only [noteValue, Node.follow_map, Node.refuseLocal_none, pure_bind]
  rw [mapM_map_eq_pure (r := fun entry => (Value.text entry.1, entry.2.reread)), pure_bind]
  · rfl
  · intro entry hentry
    obtain ⟨hread, hkind⟩ := Note.entries_read hnumbers entry hentry
    rw [Value.isRead_text, pure_bind]
    by_cases hkey : entry.1 = Note.kindKey
    · obtain ⟨string, hstring⟩ := hkind hkey
      have hisKey : Note.isKindKey (Value.text entry.1).reread := by
        rw [hkey]
        decide
      rw [if_pos hisKey, hstring, Node.text_text, pure_bind]
      rfl
    · have hisKey : ¬ Note.isKindKey (Value.text entry.1).reread := by
        intro h
        exact hkey (Option.some.inj (of_decide_eq_true h))
      rw [if_neg hisKey, hread, pure_bind]
      rfl

/-- The node of a timeline is read as the timeline. -/
theorem notesOfNode_node {notes : List (Note Double)}
    (hnumbers : ∀ note ∈ notes, ∀ x ∈ note.numbers, x.isNaN = false) (depth : Nat) :
    notesOfNode depth (notesValue notes).node = pure notes := by
  rw [notesOfNode, notesValue, Value.node_list, Node.items_list, pure_bind, List.map_map,
    mapM_map_eq_pure (r := Note.reread), pure_bind, Note.listOfValues_reread hnumbers]
  · rfl
  · intro note hnote
    exact noteValue_node (hnumbers note hnote) _

/-- All tracks as a value. -/
def tracksValue {α : Type} [Numeral α] (tracks : List (Track α)) : Value :=
  .record (tracks.map fun track => (track.name, notesValue track.notes))

/-- The node of all tracks is read as the tracks. -/
theorem tracksOfNode_node {tracks : List (Track Double)}
    (hnumbers : ∀ track ∈ tracks, ∀ note ∈ track.notes, ∀ x ∈ note.numbers, x.isNaN = false) :
    tracksOfNode (tracksValue tracks).node = pure tracks := by
  rw [tracksOfNode, tracksValue, Value.node_record, Node.entries_map, pure_bind,
    Config.withTextKeys_record, pure_bind, List.map_map, mapM_map_eq_pure (r := id), List.map_id]
  intro track htrack
  show (notesOfNode 2 (notesValue track.notes).node >>= fun notes =>
    pure (⟨track.name, notes⟩ : Track Double)) = _
  rw [notesOfNode_node (hnumbers track htrack), pure_bind]
  rfl

/-- The entries of settings are told from that of the tracks. -/
theorem filter_entries (config : Config Double) (tracks : Value) :
    let nodes := (config.entries ++ [(tracksKey, tracks)]).map fun entry => (entry.1, entry.2.node)
    nodes.filter (fun entry => entry.1 = tracksKey) = [(tracksKey, tracks.node)] ∧
      nodes.filter (fun entry => entry.1 ≠ tracksKey) =
        config.entries.map fun entry => (entry.1, entry.2.node) := by
  intro nodes
  have hkey : ∀ field : Config.Field, field.key ≠ tracksKey := by
    intro field
    cases field <;> decide
  have hsettings : ∀ entry ∈ config.entries.map fun entry => (entry.1, entry.2.node),
      entry.1 ≠ tracksKey := by
    rw [Config.entries_eq, List.map_map]
    intro entry hentry
    obtain ⟨written, -, rfl⟩ := List.mem_map.mp hentry
    exact hkey written.1
  have hnodes : nodes = config.entries.map (fun entry => (entry.1, entry.2.node)) ++
      [(tracksKey, tracks.node)] := List.map_append
  rw [hnodes, List.filter_append, List.filter_append]
  constructor
  · rw [List.filter_eq_nil_iff.mpr fun entry hentry => by simpa using hsettings entry hentry]
    simp
  · rw [List.filter_eq_self.mpr fun entry hentry => by simpa using hsettings entry hentry]
    simp

/-- The numbers of a file. -/
def numbers (file : ProjectFile α) : List α :=
  file.config.crossfade :: file.tracks.flatMap fun track => track.notes.flatMap Note.numbers

variable {file : ProjectFile Double}

/-- The node of a file is read as the file. -/
theorem ofNode_node (workers : UInt64) (hnumbers : ∀ x ∈ file.numbers, x.isNaN = false) :
    ofNode (.standard workers) file.toValue.node = pure file := by
  have hcrossfade : file.config.crossfade.isNaN = false := hnumbers _ List.mem_cons_self
  have hnotes : ∀ track ∈ file.tracks, ∀ note ∈ track.notes, ∀ x ∈ note.numbers,
      x.isNaN = false := by
    intro track htrack note hnote x hx
    refine hnumbers x (List.mem_cons_of_mem _ (List.mem_flatMap.mpr ⟨track, htrack, ?_⟩))
    exact List.mem_flatMap.mpr ⟨note, hnote, hx⟩
  have htoValue : file.toValue =
      .record (file.config.entries ++ [(tracksKey, tracksValue file.tracks)]) := rfl
  obtain ⟨htracks, hsettings⟩ := filter_entries file.config (tracksValue file.tracks)
  rw [ofNode, htoValue, Value.node_record, Node.entries_map, pure_bind, Config.withTextKeys_record,
    pure_bind]
  simp only [htracks, hsettings]
  rw [tracksOfNode_node hnotes, pure_bind,
    mapM_map_eq_pure (r := fun entry => (entry.1, entry.2.reread)), pure_bind,
    Config.ofValues?_entries workers hcrossfade]
  · show (pure (ofTracks file.config file.tracks) : Reading _) = _
    rw [file.ofTracks_tracks]
  · intro entry hentry
    rw [Config.entries_read hcrossfade entry hentry, pure_bind]

/-- A project file is read back from its document, whatever its tracks, notes and texts are, if it
has no number without a value and the document is laid out as it was written; and so are settings by
themselves. Settings that are not valid are written like others, but are refused when they are read.
The number of workers is that of the settings, not the one that is standard. -/
theorem saved_files_read_back (workers : UInt64) :
    (∀ file : ProjectFile Double, (∀ x ∈ file.numbers, x.isNaN = false) → file.toValue.LaidOut →
      ofYaml (.standard workers) file.toYaml =
        (file.config.validate.mapError .config).map fun _ => file) ∧
    ∀ config : Config Double, config.crossfade.isNaN = false → config.toValue.LaidOut →
      Config.ofYaml (.standard workers) config.toYaml =
        (config.validate.mapError .config).map fun _ => config := by
  constructor
  · intro file hnumbers hlaidOut
    rw [ofYaml, toYaml, hlaidOut, Option.bind_some, ofNode_node workers hnumbers,
      Document.read?_pure]
    show (file.config.validate.mapError RenderError.config >>= fun _ => .ok file) = _
    cases file.config.validate <;> rfl
  · intro config hnumber hlaidOut
    rw [Config.ofYaml, Config.toYaml, hlaidOut, Option.bind_some,
      Config.ofNode_node workers hnumber, Document.read?_pure]
    show (config.validate.mapError RenderError.config >>= fun _ => .ok config) = _
    cases config.validate <;> rfl

/-- A file without an author whose texts have to be quoted, with two tracks: a rest and a note with
an overlap of its own but without a preutterance, and no notes at all. -/
def quotedFile : ProjectFile Double where
  config := ⟨"12", "", "声", 44100, 4, .ola, ⟨0x4024000000000000⟩⟩
  tracks := [
    ⟨"#", [.rest ⟨0x4059000000000000⟩,
      .sung "true" ⟨0x404e400000000000⟩ ⟨0x407f400000000000⟩ none (some ⟨0xbfe0000000000000⟩)]⟩,
    ⟨"a", []⟩]
  sorted := by
    rw [List.pairwise_pair]
    show "#" < "a"
    decide

/-- The file is laid out as it is written, and is read back, and so are its settings. -/
theorem quotedFile_reads_back :
    (∀ x ∈ quotedFile.numbers, x.isNaN = false) ∧ quotedFile.toValue.LaidOut ∧
    quotedFile.config.toValue.LaidOut ∧
    ofYaml (.standard 8) quotedFile.toYaml =
      (quotedFile.config.validate.mapError .config).map (fun _ => quotedFile) ∧
    Config.ofYaml (.standard 8) quotedFile.config.toYaml =
      (quotedFile.config.validate.mapError .config).map fun _ => quotedFile.config := by
  have hnumbers : ∀ x ∈ quotedFile.numbers, x.isNaN = false := by decide
  -- The characters are read as they are written, without the bytes between them.
  have hfile : quotedFile.toValue.LaidOut := by
    rw [Value.LaidOut, Document.ofText?, Token.ofText?, Value.yaml, String.toList_ofList]
    decide +kernel
  have hconfig : quotedFile.config.toValue.LaidOut := by
    rw [Value.LaidOut, Document.ofText?, Token.ofText?, Value.yaml, String.toList_ofList]
    decide +kernel
  obtain ⟨hreadFile, hreadConfig⟩ := saved_files_read_back 8
  exact ⟨hnumbers, hfile, hconfig, hreadFile quotedFile hnumbers hfile,
    hreadConfig quotedFile.config (hnumbers _ List.mem_cons_self) hconfig⟩

end ProjectFile

end SingingVoice
