import SingingVoice.Proofs.Decimal.Alphabet
import SingingVoice.Proofs.Result
import SingingVoice.Proofs.Text.Line
import SingingVoice.Voicebank.Sample

/-!
# Records

`Recorded entry sample` says without the reader that a text is the record of a sample: its first
equals sign parts the file from six fields, of which the first is the alias and the others are
numbers. Reading finds this sample and no other (`Sample.parse_eq_ok_iff`). The last number ends a
record and has no bracket, so no record ends in one (`Sample.parse_ne_ok_of_bracket`).
-/

namespace SingingVoice.Sample

variable {α : Type} [Numeral α] {entry : List Char} {sample : Sample α}

/-- A record without the line breaks at its end. -/
def recordLine (entry : List Char) : List Char :=
  Line.dropEndWhile (fun c => c = '\r' || c = '\n') entry

/-- The name of a sample in a file whose record gives an alias: a blank one stands for the name of
the file without its extension, or for all of it if there is none. -/
def nameOf (file : String) (given : List Char) : String :=
  if given = [] then (Path.stem? file).getD file else String.ofList given

/-- `Recorded entry sample`: the text is a record of the sample. -/
inductive Recorded (entry : List Char) (sample : Sample α) : Prop where
  | intro {file value name offset consonant cutoff preutterance overlap : List Char}
    (line : recordLine entry = file ++ '=' :: value)
    (first : '=' ∉ file)
    (fields : value.splitOn ',' = [name, offset, consonant, cutoff, preutterance, overlap])
    (notBlank : Line.trim file ≠ [])
    (file_eq : sample.file = String.ofList (Line.trim file))
    (name_eq : sample.name = nameOf sample.file (Line.trim name))
    (offset_eq : Numeral.parse? (Line.trim offset) = some sample.offset)
    (consonant_eq : Numeral.parse? (Line.trim consonant) = some sample.consonant)
    (cutoff_eq : Numeral.parse? (Line.trim cutoff) = some sample.cutoff)
    (preutterance_eq : Numeral.parse? (Line.trim preutterance) = some sample.preutterance)
    (overlap_eq : Numeral.parse? (Line.trim overlap) = some sample.overlap)

/-! ## Reading -/

/-- A number is read off the first field that is left. -/
theorem parseField_eq_ok_iff {field : Sample.Field} {parts rest : List (List Char)} {x : α} :
    parseField field parts = .ok (x, rest) ↔
      ∃ part, parts = part :: rest ∧ Numeral.parse? (Line.trim part) = some x := by
  cases parts with
  | nil => exact ⟨nofun, nofun⟩
  | cons part parts =>
    simp only [parseField]
    cases hparse : Numeral.parse? (α := α) (Line.trim part) with
    | none => simp [hparse]
    | some y => simp [hparse, and_comm]

/-- The sample that is read is the one that is recorded. -/
theorem recorded_of_parseEntry (hread : parseEntry entry = .ok sample) : Recorded entry sample := by
  simp only [parseEntry] at hread
  split at hread
  case h_2 => cases hread
  case h_1 file value hsplit =>
    obtain ⟨hline, hfirst⟩ := Line.splitOnce?_eq_some_iff.mp hsplit
    obtain ⟨name, numbers, hfields⟩ := List.exists_cons_of_ne_nil (List.splitOn_ne_nil ',' value)
    rw [Line.splitOn_eq, hfields, List.tail_cons, List.headD_cons] at hread
    split at hread
    case isTrue => cases hread
    case isFalse hfile =>
      -- One field goes into each number, and the last number leaves none.
      simp only [Except.bind_eq_ok, Prod.exists, parseField_eq_ok_iff] at hread
      obtain ⟨_, _, ⟨offset, rfl, hoffset⟩, _, _, ⟨consonant, rfl, hconsonant⟩,
        _, _, ⟨cutoff, rfl, hcutoff⟩, _, _, ⟨preutterance, rfl, hpreutterance⟩,
        _, left, ⟨overlap, rfl, hoverlap⟩, hread⟩ := hread
      cases left with
      | cons => cases hread
      | nil =>
        cases hread
        exact .intro hline hfirst hfields (by simpa using hfile) rfl (by simp [nameOf]) hoffset
          hconsonant hcutoff hpreutterance hoverlap

/-- A recorded sample is read. -/
theorem parseEntry_of_recorded (hrecorded : Recorded entry sample) :
    parseEntry entry = .ok sample := by
  obtain @⟨file, value, name, offset, consonant, cutoff, preutterance, overlap, hline, hfirst,
    hfields, hfile, file_eq, name_eq, hoffset, hconsonant, hcutoff, hpreutterance, hoverlap⟩ :=
    hrecorded
  have hread : ∀ field part rest (x : α), Numeral.parse? (Line.trim part) = some x →
      parseField field (part :: rest) = .ok (x, rest) := fun _ part _ _ hparse =>
    parseField_eq_ok_iff.mpr ⟨part, rfl, hparse⟩
  have hempty : (String.ofList (Line.trim file)).isEmpty = false := by
    simpa using hfile
  cases sample
  simp only at file_eq name_eq
  simp only [parseEntry]
  rw [recordLine] at hline
  rw [hline, Line.splitOnce?_eq_some_iff.mpr ⟨rfl, hfirst⟩]
  simp [hempty, Line.splitOn_eq, hfields, hread _ _ _ _ hoffset, hread _ _ _ _ hconsonant,
    hread _ _ _ _ hcutoff, hread _ _ _ _ hpreutterance, hread _ _ _ _ hoverlap, file_eq, name_eq,
    nameOf, pure, Except.pure]

theorem parse_eq_ok_iff {text : String} :
    parse text = .ok sample ↔ Recorded text.toList sample := by
  rw [parse]
  constructor
  · intro hread
    split at hread
    case h_1 hentry =>
      cases hread
      exact recorded_of_parseEntry hentry
    case h_2 => cases hread
  · intro hrecorded
    rw [parseEntry_of_recorded hrecorded]

/-! ## Where records end -/

/-- A text that ends in a bracket is no record. -/
theorem parse_ne_ok_of_bracket {line : List Char} (hlast : line.getLast? = some ']')
    (sample : Sample α) : parse (String.ofList line) ≠ .ok sample := by
  intro hread
  rw [parse_eq_ok_iff, String.toList_ofList] at hread
  obtain @⟨file, value, name, offset, consonant, cutoff, preutterance, overlap, hline, -, hfields,
    -, -, -, -, -, -, -, hoverlap⟩ := hread
  rw [recordLine, Line.dropEndWhile_of_getLast? hlast (by decide)] at hline
  have hvalue : value.getLast? = some ']' := by
    rw [hline, List.getLast?_append_cons] at hlast
    cases value with
    | nil => cases hlast
    | cons c value => exact hlast
  -- The bracket would be the last character of the last number.
  have hbracket : overlap.getLast? = some ']' :=
    Line.getLast?_of_getLast?_splitOn (by rw [hfields]; rfl) hvalue (by decide)
  have hmem : ']' ∈ Line.trim overlap :=
    Line.mem_trim (List.mem_of_getLast? hbracket) (by decide +kernel)
  exact Numeral.not_mem_of_parse? hoverlap (by decide) hmem

end SingingVoice.Sample
