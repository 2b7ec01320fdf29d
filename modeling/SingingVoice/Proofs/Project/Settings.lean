import SingingVoice.Project.Config
import SingingVoice.Proofs.Yaml.Layout

/-!
# Settings that are written and read again

Texts that are empty are left out of the document of settings, and the standard settings have them
empty. So reading the entries of settings onto the standard settings gives the settings back, for
every source whose scalars are read as they were written (`Config.readFields_entries`): for the
nodes of a document and for their values.
-/

namespace SingingVoice.Config

variable {α : Type} {m : Type → Type} [Monad m] {σ : Type}

/-! ## Entries -/

theorem ofKey?_key (field : Field) : Field.ofKey? field.key = some field := by
  cases field <;> decide

theorem modeOfName?_modeName (mode : StretchMode) : modeOfName? (modeName mode) = some mode := by
  cases mode <;> decide

/-- The field of a text, unless the text is empty. -/
def textField (field : Field) (text : String) : List (Field × Value) :=
  if text.isEmpty then [] else [(field, .text text)]

/-- The entries of settings with their fields in place of the names. -/
def fieldEntries [Numeral α] (config : Config α) : List (Field × Value) :=
  textField .name config.name ++ textField .author config.author ++
    [(Field.voicebank, Value.text config.voicebank),
     (Field.sampleRate, Value.nat config.sampleRate.toNat),
     (Field.workers, Value.nat config.workers.toNat),
     (Field.stretch, Value.text (modeName config.stretch)),
     (Field.crossfade, Value.ofNumeral config.crossfade)]

theorem entries_eq [Numeral α] (config : Config α) :
    config.entries = config.fieldEntries.map fun entry => (entry.1.key, entry.2) := by
  unfold entries fieldEntries textEntry textField
  cases config.name.isEmpty <;> cases config.author.isEmpty <;> rfl

/-- The written entries are settings, each of which stands only once. -/
theorem fields?_entries [Numeral α] (config : Config α) (source : Value → σ) :
    fields? (config.entries.map fun entry => (entry.1, source entry.2)) =
      some (config.fieldEntries.map fun entry => (entry.1, source entry.2)) := by
  have hfields : (config.entries.map fun entry => (entry.1, source entry.2)).filterMap
      (fun entry => (Field.ofKey? entry.1).map fun field => (field, entry.2)) =
        config.fieldEntries.map fun entry => (entry.1, source entry.2) := by
    rw [entries_eq, List.map_map, List.filterMap_map, ← List.filterMap_eq_map]
    congr 1
    funext entry
    simp [ofKey?_key]
  have hnodup : ((config.fieldEntries.map fun entry => (entry.1, source entry.2)).map
      Prod.fst).Nodup := by
    rw [List.map_map]
    unfold fieldEntries textField
    cases config.name.isEmpty <;> cases config.author.isEmpty <;> simp
  show (if _ then _ else _) = _
  rw [hfields, if_pos hnodup]

/-! ## Reading -/

/-- Scalars of settings are read from a source as they were written. -/
structure Leaves.Read [Numeral α] (leaves : Leaves m σ α) (source : Value → σ)
    (config : Config α) : Prop where
  text : ∀ string, leaves.text (source (.text string)) = pure string
  natBelow : ∀ number bound, number < bound → bound ≤ UInt64.size →
    leaves.natBelow bound (source (.nat number)) = pure number
  number : leaves.number (source (.ofNumeral config.crossfade)) = pure config.crossfade
  mode : ∀ mode, leaves.mode (source (.text (modeName mode))) = pure mode

/-- The entries of settings are read onto the standard settings as the settings. -/
theorem readFields_entries [Scalar α] [Numeral α] [LawfulMonad m] {leaves : Leaves m σ α}
    {source : Value → σ} {config : Config α} (h : leaves.Read source config) (workers : UInt64) :
    readFields leaves (standard workers)
      (config.fieldEntries.map fun entry => (entry.1, source entry.2)) = pure config := by
  have hrate := h.natBelow _ _ config.sampleRate.toNat_lt_size (by decide)
  have hworkers := h.natBelow _ _ config.workers.toNat_lt_size le_rfl
  obtain ⟨name, author, voicebank, sampleRate, ownWorkers, stretch, crossfade⟩ := config
  simp only [fieldEntries, textField, readFields, List.map_append, List.foldlM_append]
  by_cases hname : name = "" <;> by_cases hauthor : author = "" <;>
    simp [readField, standard, h.text, h.number, h.mode, hrate, hworkers, hname, hauthor]

/-- Nodes of a document are read as they were written. -/
theorem nodeLeaves_read {config : Config Double} (hnumber : config.crossfade.isNaN = false) :
    (nodeLeaves : Leaves Yaml.Reading Yaml.Node Double).Read Value.node config where
  text := Yaml.Node.text_text
  natBelow _ _ hbound _ := Yaml.Node.natBelow_nat hbound
  number := Yaml.Node.float_ofNumeral hnumber
  mode mode := by
    show ((Value.text (modeName mode)).node.word >>= fun name =>
      (modeOfName? name : Yaml.Reading StretchMode)) = _
    rw [Yaml.Node.word_text, pure_bind, modeOfName?_modeName]
    rfl

/-- The values of nodes are read as they were written. -/
theorem valueLeaves_read {config : Config Double} (hnumber : config.crossfade.isNaN = false) :
    (valueLeaves : Leaves Option Value Double).Read Value.reread config where
  text _ := rfl
  natBelow _ _ hbound _ := if_pos hbound
  number := Value.numeral?_reread hnumber
  mode := modeOfName?_modeName

/-! ## Documents -/

/-- The keys of a record are read as they were written. -/
theorem withTextKeys_record (entries : List (String × Value)) :
    withTextKeys (entries.map fun entry => ((Value.text entry.1).node, entry.2.node)) =
      pure (entries.map fun entry => (entry.1, entry.2.node)) := by
  refine Yaml.mapM_map_eq_pure fun entry _ => ?_
  show ((Value.text entry.1).node.text >>= fun key => pure (key, entry.2.node)) = _
  rw [Yaml.Node.text_text, pure_bind]

variable {config : Config Double}

/-- The node of settings is read as the settings. -/
theorem ofNode_node (workers : UInt64) (hnumber : config.crossfade.isNaN = false) :
    ofNode (standard workers) config.toValue.node = pure config := by
  rw [ofNode, toValue, Value.node_record, Yaml.Node.entries_map, pure_bind, withTextKeys_record,
    pure_bind, fields?_entries]
  exact readFields_entries (nodeLeaves_read hnumber) workers

/-- Every entry of settings is a scalar that is read. -/
theorem entries_read (hnumber : config.crossfade.isNaN = false) :
    ∀ entry ∈ config.entries, entry.2.IsRead := by
  have hrate : (Value.nat config.sampleRate.toNat).IsRead :=
    Value.isRead_nat (config.sampleRate.toNat_lt_size.trans (by decide))
  have htext : ∀ (field : Field) (string : String), ∀ entry ∈ textEntry field string,
      entry.2.IsRead := by
    intro field string entry hentry
    unfold textEntry at hentry
    split at hentry
    · cases hentry
    · obtain rfl := List.mem_singleton.mp hentry
      exact Value.isRead_text string
  simp only [entries, List.forall_mem_append, List.forall_mem_cons]
  exact ⟨⟨htext _ _, htext _ _⟩, Value.isRead_text _, hrate,
    Value.isRead_nat config.workers.toNat_lt_size, Value.isRead_text _,
    Value.isRead_ofNumeral hnumber, nofun⟩

/-- The values of the entries of settings are read as the settings. -/
theorem ofValues?_entries (workers : UInt64) (hnumber : config.crossfade.isNaN = false) :
    ofValues? (standard workers) (config.entries.map fun entry => (entry.1, entry.2.reread)) =
      some config := by
  rw [ofValues?, fields?_entries]
  exact readFields_entries (valueLeaves_read hnumber) workers

end SingingVoice.Config
