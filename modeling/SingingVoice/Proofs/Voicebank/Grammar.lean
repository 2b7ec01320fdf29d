import SingingVoice.Proofs.Decimal.Text
import SingingVoice.Proofs.Voicebank.Record

/-!
# The grammar of records

Which texts are records can be told without the samples: `IsRecord` asks for an equals sign with a
file before it, for five commas behind it and for numerals between and after the commas. Writing a
sample gives a record of it if its file and its alias have no separators and nothing to trim, and if
its numbers read back (`Sample.recorded_entry`). The main theorem is `Sample.records_read_exactly`.
-/

namespace SingingVoice

namespace Sample

variable {α : Type} [Numeral α] {entry : List Char} {sample : Sample α}

/-! ## Which texts are records -/

variable (α) in
/-- A text is a record if, without the line breaks at its end, it has an equals sign, the text
before the first is not blank, the text behind it has exactly five commas, and each field behind a
comma is a numeral once it is trimmed. -/
def IsRecord (entry : List Char) : Prop :=
  ∃ file value, recordLine entry = file ++ '=' :: value ∧ '=' ∉ file ∧
    (∃ c ∈ file, Unicode.isWhiteSpace c = false) ∧ value.count ',' = 5 ∧
    ∀ field ∈ (value.splitOn ',').tail, ∃ x : α, Numeral.parse? (Line.trim field) = some x

theorem trim_ne_nil_iff {cs : List Char} :
    Line.trim cs ≠ [] ↔ ∃ c ∈ cs, Unicode.isWhiteSpace c = false := by
  simp [Line.trim_eq_nil_iff]

/-- The records are the texts that are records of some sample. -/
theorem exists_recorded_iff : (∃ sample : Sample α, Recorded entry sample) ↔ IsRecord α entry := by
  constructor
  · rintro ⟨sample, @⟨file, value, name, offset, consonant, cutoff, preutterance, overlap, hline,
      hfirst, hfields, hfile, -, -, hoffset, hconsonant, hcutoff, hpreutterance, hoverlap⟩⟩
    refine ⟨file, value, hline, hfirst, trim_ne_nil_iff.mp hfile, ?_, ?_⟩
    · have hcount : (value.splitOn ',').length = value.count ',' + 1 := Line.length_splitOn value
      rw [hfields] at hcount
      exact Nat.succ_injective hcount.symm
    · rw [hfields]
      simp only [List.tail_cons, List.forall_mem_cons]
      exact ⟨⟨_, hoffset⟩, ⟨_, hconsonant⟩, ⟨_, hcutoff⟩, ⟨_, hpreutterance⟩, ⟨_, hoverlap⟩, nofun⟩
  · rintro ⟨file, value, hline, hfirst, hfile, hcount, hnumbers⟩
    have hlength : (value.splitOn ',').length = 6 := by
      rw [Line.length_splitOn, hcount]
    obtain ⟨name, offset, consonant, cutoff, preutterance, overlap, hfields⟩ :
        ∃ name offset consonant cutoff preutterance overlap,
          value.splitOn ',' = [name, offset, consonant, cutoff, preutterance, overlap] := by
      match value.splitOn ',', hlength with
      | [name, offset, consonant, cutoff, preutterance, overlap], _ => exact ⟨_, _, _, _, _, _, rfl⟩
    rw [hfields] at hnumbers
    simp only [List.tail_cons, List.forall_mem_cons] at hnumbers
    obtain ⟨⟨x₁, h₁⟩, ⟨x₂, h₂⟩, ⟨x₃, h₃⟩, ⟨x₄, h₄⟩, ⟨x₅, h₅⟩, -⟩ := hnumbers
    exact ⟨⟨String.ofList (Line.trim file), nameOf (String.ofList (Line.trim file)) (Line.trim name),
      x₁, x₂, x₃, x₄, x₅⟩,
      .intro hline hfirst hfields (trim_ne_nil_iff.mpr hfile) rfl rfl h₁ h₂ h₃ h₄ h₅⟩

/-! ## Written records -/

/-- The record of a sample tells all of it: file and alias are not empty, have nothing to trim and
no separators, and the numbers read back. -/
structure Tells (sample : Sample α) : Prop where
  file_ne : sample.file ≠ ""
  file_trim : Line.trim sample.file.toList = sample.file.toList
  file_plain : '=' ∉ sample.file.toList
  name_ne : sample.name ≠ ""
  name_trim : Line.trim sample.name.toList = sample.name.toList
  name_plain : ',' ∉ sample.name.toList
  numbers : ∀ x ∈ [sample.offset, sample.consonant, sample.cutoff, sample.preutterance,
    sample.overlap], Numeral.ReadsBack x

theorem toList_entry (sample : Sample α) :
    sample.entry.toList = sample.file.toList ++ '=' ::
      [','].intercalate [sample.name.toList, (Numeral.text sample.offset).toList,
        (Numeral.text sample.consonant).toList, (Numeral.text sample.cutoff).toList,
        (Numeral.text sample.preutterance).toList, (Numeral.text sample.overlap).toList] := by
  simp [entry]

/-- A written record ends with its last number. -/
theorem overlap_suffix_entry (sample : Sample α) :
    (Numeral.text sample.overlap).toList <:+ sample.entry.toList := by
  rw [toList_entry]
  simp only [List.intercalate_cons_cons, List.intercalate_singleton]
  simp only [← List.append_assoc, ← List.cons_append]
  exact List.suffix_append _ _

/-- A record that ends with a numeral has no line breaks at its end. -/
theorem recordLine_of_parse? {front number : List Char} {x : α}
    (hparse : Numeral.parse? number = some x) :
    recordLine (front ++ number) = front ++ number := by
  have hne : number ≠ [] := by
    rintro rfl
    cases hparse
  have hlast : (front ++ number).getLast? = some (number.getLast hne) := by
    rw [List.getLast?_append_of_ne_nil _ hne, List.getLast?_eq_some_getLast hne]
  refine Line.dropEndWhile_of_getLast? hlast ?_
  have hchar := Numeral.isNumeralChar_of_parse? hparse (List.getLast_mem hne)
  -- Line breaks do not stand in numerals.
  by_contra hbreak
  simp only [Bool.or_eq_false_iff, decide_eq_false_iff_not, not_and_or, not_not] at hbreak
  rcases hbreak with hbreak | hbreak <;> rw [hbreak] at hchar <;> revert hchar <;> decide

theorem recorded_entry (htells : sample.Tells) : Recorded sample.entry.toList sample := by
  have hread : ∀ x ∈ [sample.offset, sample.consonant, sample.cutoff, sample.preutterance,
      sample.overlap], Numeral.parse? (Line.trim (Numeral.text x).toList) = some x := by
    intro x hx
    have hparse := htells.numbers x hx
    rw [Numeral.trim_of_parse? hparse]
    exact hparse
  have hcomma : ∀ x ∈ [sample.offset, sample.consonant, sample.cutoff, sample.preutterance,
      sample.overlap], ',' ∉ (Numeral.text x).toList := by
    intro x hx
    exact Numeral.not_mem_of_parse? (htells.numbers x hx) (by decide)
  have hoverlap : Numeral.ReadsBack sample.overlap := htells.numbers _ (by simp)
  simp only [List.forall_mem_cons] at hread hcomma
  obtain ⟨hread₁, hread₂, hread₃, hread₄, hread₅, -⟩ := hread
  obtain ⟨hcomma₁, hcomma₂, hcomma₃, hcomma₄, hcomma₅, -⟩ := hcomma
  have hline : recordLine sample.entry.toList = sample.entry.toList := by
    obtain ⟨front, hfront⟩ := overlap_suffix_entry sample
    rw [← hfront]
    exact recordLine_of_parse? hoverlap
  refine .intro (hline.trans (toList_entry sample)) htells.file_plain
    (List.splitOn_intercalate ',' ?_ (List.cons_ne_nil _ _)) ?_ ?_ ?_
    hread₁ hread₂ hread₃ hread₄ hread₅
  · simp only [List.forall_mem_cons]
    exact ⟨htells.name_plain, hcomma₁, hcomma₂, hcomma₃, hcomma₄, hcomma₅, nofun⟩
  · rw [htells.file_trim]
    exact fun h => htells.file_ne (String.toList_eq_nil_iff.mp h)
  · rw [htells.file_trim, String.ofList_toList]
  · rw [htells.name_trim, nameOf, String.ofList_toList,
      if_neg fun h => htells.name_ne (String.toList_eq_nil_iff.mp h)]

/-- Reading finds exactly the sample that a text is the record of, so exactly the records are read.
Any other text is refused with line zero and the whole text. A sample whose record tells all of it
is read back from its record. -/
theorem records_read_exactly (text : String) :
    (∀ sample : Sample α, parse text = .ok sample ↔ Recorded text.toList sample) ∧
    ((∃ sample : Sample α, parse text = .ok sample) ↔ IsRecord α text.toList) ∧
    (∀ error : VoicebankError α, parse text = .error error →
      ∃ fault, error = .parse 0 text fault) ∧
    ∀ sample : Sample α, sample.Tells → parse sample.entry = .ok sample := by
  refine ⟨fun sample => parse_eq_ok_iff, ?_, ?_, ?_⟩
  · simp only [parse_eq_ok_iff]
    exact exists_recorded_iff
  · intro error hread
    rw [parse] at hread
    split at hread
    case h_1 => cases hread
    case h_2 fault _ => exact ⟨fault, (Except.error.inj hread).symm⟩
  · intro sample htells
    exact parse_eq_ok_iff.mpr (recorded_entry htells)

/-- A sample of a voicebank, with numbers that are not whole and one below zero. -/
def breathSample : Sample Double :=
  ⟨"い き.wav", "* い=R", ⟨0x4059000000000000⟩, ⟨0x3fb999999999999a⟩, ⟨0xc049000000000000⟩,
    ⟨0x0000000000000001⟩, ⟨0x4415af1d78b58c40⟩⟩

/-- A file with a space and an alias with an equals sign and the five numbers are read back from the
record. A text without fields is refused. -/
theorem breathSample_read_from_record :
    breathSample.Tells ∧ parse breathSample.entry = .ok breathSample ∧
      ∃ fault, (parse "い き.wav" : Except (VoicebankError Double) (Sample Double)) =
        .error (.parse 0 "い き.wav" fault) := by
  have htells : breathSample.Tells := by
    refine ⟨by decide, by decide +kernel, by decide, by decide, by decide +kernel, by decide,
      fun x hx => ?_⟩
    have hnumber : ∀ x ∈ [breathSample.offset, breathSample.consonant, breathSample.cutoff,
        breathSample.preutterance, breathSample.overlap], x.isNaN = false := by
      decide
    exact Double.readsBack (hnumber x hx)
  obtain ⟨-, -, hfault, -⟩ := records_read_exactly (α := Double) "い き.wav"
  obtain ⟨-, -, -, hread⟩ := records_read_exactly (α := Double) breathSample.entry
  refine ⟨htells, hread breathSample htells, ?_⟩
  obtain ⟨fault, herror⟩ := hfault _ rfl
  exact ⟨fault, congrArg Except.error herror⟩

end Sample

end SingingVoice
