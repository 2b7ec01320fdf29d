import Mathlib
import SingingVoice.Pitch
import SingingVoice.Proofs.Decimal.Text

/-!
# Note names

A note name is spelled by a letter, an accidental and an octave (`Pitch.Spelling`). The characters
of a spelling are read as what it stands for (`parse?_chars`), nothing else is read
(`exists_spelling`), and no text has two spellings although `b` is a letter and also a flat
(`chars_injective`). The main theorem is `names_read_exactly`. Its last part takes a text apart by a
pattern before the octave is read as a number (`Matched`), and the result is the same.
-/

namespace SingingVoice.Pitch

/-! ## Spellings -/

/-- The letters of notes, upwards from the C of an octave. -/
inductive Letter where
  | c
  | d
  | e
  | f
  | g
  | a
  | b
deriving DecidableEq

namespace Letter

instance : Fintype Letter where
  elems := {.c, .d, .e, .f, .g, .a, .b}
  complete letter := by cases letter <;> decide

/-- The semitones of the letter above C. -/
def semitones : Letter → Int
  | c => 0
  | d => 2
  | e => 4
  | f => 5
  | g => 7
  | a => 9
  | b => 11

/-- The small letter. -/
def small : Letter → Char
  | c => 'c'
  | d => 'd'
  | e => 'e'
  | f => 'f'
  | g => 'g'
  | a => 'a'
  | b => 'b'

/-- The letter in either case. -/
def char (letter : Letter) (capital : Bool) : Char :=
  if capital then letter.small.toUpper else letter.small

end Letter

/-- What may stand after the letter of a note. -/
inductive Accidental where
  | natural
  | sharp
  | doubleSharp
  | flat
  | doubleFlat
deriving DecidableEq

namespace Accidental

/-- The characters of an accidental. -/
def chars : Accidental → List Char
  | natural => []
  | sharp => ['#']
  | doubleSharp => ['#', '#']
  | flat => ['b']
  | doubleFlat => ['b', 'b']

/-- The semitones by which an accidental raises a letter. -/
def steps : Accidental → Int
  | natural => 0
  | sharp => 1
  | doubleSharp => 2
  | flat => -1
  | doubleFlat => -2

end Accidental

/-- The octaves of note names: one below zero, and those of a single digit. -/
inductive Octave where
  | belowZero
  | digit (n : Fin 10)
deriving DecidableEq

namespace Octave

/-- The characters of an octave. -/
def chars : Octave → List Char
  | belowZero => ['-', '1']
  | digit n => [Nat.digitChar n]

/-- The number of an octave. -/
def number : Octave → Int
  | belowZero => -1
  | digit n => (n : Nat)

end Octave

/-- A way to write a note name. -/
structure Spelling where
  letter : Letter
  /-- Whether the letter is a capital. -/
  capital : Bool
  accidental : Accidental
  octave : Octave
deriving DecidableEq

namespace Spelling

/-- The characters of a note name. -/
def chars (spelling : Spelling) : List Char :=
  spelling.letter.char spelling.capital ::
    (spelling.accidental.chars ++ spelling.octave.chars)

/-- The text of a note name. -/
def text (spelling : Spelling) : String :=
  String.ofList spelling.chars

/-- What is named. -/
def name (spelling : Spelling) : Name :=
  ⟨spelling.letter.semitones, spelling.accidental.steps, spelling.octave.number⟩

/-- The number of the note. -/
def note (spelling : Spelling) : Int :=
  spelling.letter.semitones + spelling.accidental.steps + 12 * (spelling.octave.number + 1)

end Spelling

/-! ## Reading the parts -/

variable {c : Char} {cs rest : List Char} {n : Int} {name : Name}

theorem letter?_char (letter : Letter) (capital : Bool) :
    Name.letter? (letter.char capital) = some letter.semitones := by
  cases letter <;> cases capital <;> rfl

/-- Only letters are read as letters. -/
theorem exists_letter (h : Name.letter? c = some n) :
    ∃ (letter : Letter) (capital : Bool), letter.char capital = c := by
  unfold Name.letter? at h
  split at h
  case h_15 => cases h
  all_goals decide

/-- An accidental is split off a text that goes on with neither of its characters. -/
theorem splitAccidental_append (accidental : Accidental)
    (hrest : ∀ c ∈ rest.head?, c ≠ '#' ∧ c ≠ 'b') :
    Name.splitAccidental (accidental.chars ++ rest) = (accidental.steps, rest) := by
  cases rest with
  | nil => cases accidental <;> rfl
  | cons c rest =>
      obtain ⟨hsharp, hflat⟩ := hrest c rfl
      cases accidental <;>
        simp [Accidental.chars, Accidental.steps, Name.splitAccidental, hsharp, hflat]

/-- What is split off a text is an accidental. -/
theorem exists_accidental (cs : List Char) :
    ∃ accidental : Accidental, accidental.chars ++ (Name.splitAccidental cs).2 = cs := by
  fun_cases Name.splitAccidental cs
  · exact ⟨.doubleSharp, rfl⟩
  · exact ⟨.sharp, rfl⟩
  · exact ⟨.doubleFlat, rfl⟩
  · exact ⟨.flat, rfl⟩
  · exact ⟨.natural, rfl⟩

/-- The characters of an octave are read as its number. -/
theorem octave?_chars (octave : Octave) : Name.octave? octave.chars = some octave.number := by
  cases octave with
  | belowZero => rfl
  | digit n =>
      rw [Octave.chars, Name.octave?, if_pos (Decimal.isDigit_digitChar n.isLt),
        Decimal.toNat_digitChar_sub n.isLt]
      rfl

/-- Only octaves are read as octaves. -/
theorem exists_octave (h : Name.octave? cs = some n) : ∃ octave : Octave, octave.chars = cs := by
  unfold Name.octave? at h
  split at h
  · split at h
    · rename_i hdigit
      obtain ⟨n, hn⟩ := Decimal.exists_digitChar hdigit
      exact ⟨.digit n, congrArg ([·]) hn⟩
    · cases h
  · split at h
    · rename_i hchars
      exact ⟨.belowZero, hchars.symm⟩
    · cases h

/-- An octave starts with neither of the characters of accidentals. -/
theorem head_octave (octave : Octave) : ∀ c ∈ octave.chars.head?, c ≠ '#' ∧ c ≠ 'b' := by
  cases octave with
  | belowZero =>
      rintro c ⟨⟩
      decide
  | digit n =>
      have hdigit := Decimal.isDigit_digitChar n.isLt
      rintro c ⟨⟩
      constructor
      · intro hc
        rw [hc] at hdigit
        cases hdigit
      · intro hc
        rw [hc] at hdigit
        cases hdigit

/-! ## Reading the whole -/

/-- The characters of a spelling are read as what it stands for. -/
theorem parse?_chars (spelling : Spelling) : Name.parse? spelling.chars = some spelling.name := by
  simp only [Spelling.chars, Name.parse?, letter?_char,
    splitAccidental_append _ (head_octave spelling.octave), octave?_chars]
  rfl

/-- Only spellings are read. -/
theorem exists_spelling (h : Name.parse? cs = some name) :
    ∃ spelling : Spelling, spelling.chars = cs := by
  cases cs with
  | nil => cases h
  | cons first rest =>
      simp only [Name.parse?, Option.bind_eq_bind, Option.bind_eq_some_iff] at h
      obtain ⟨semitones, hletter, octave, hoctave, -⟩ := h
      obtain ⟨letter, capital, hfirst⟩ := exists_letter hletter
      obtain ⟨accidental, hrest⟩ := exists_accidental rest
      obtain ⟨octave, hchars⟩ := exists_octave hoctave
      exact ⟨⟨letter, capital, accidental, octave⟩, by rw [Spelling.chars, hfirst, hchars, hrest]⟩

theorem semitones_injective : Function.Injective Letter.semitones := by
  decide

theorem steps_injective : Function.Injective Accidental.steps := by
  intro first second h
  cases first <;> cases second <;> first | rfl | cases h

theorem number_injective : Function.Injective Octave.number := by
  intro first second h
  cases first with
  | belowZero =>
      cases second with
      | belowZero => rfl
      | digit n => cases h
  | digit n =>
      cases second with
      | belowZero => cases h
      | digit m => exact congrArg Octave.digit (Fin.ext (Int.ofNat.inj h))

theorem char_injective (letter : Letter) : Function.Injective letter.char := by
  cases letter <;> decide

/-- No text has two spellings: what is read tells the letter, the accidental and the octave, and the
first character tells the case. -/
theorem chars_injective : Function.Injective Spelling.chars := by
  rintro ⟨letter, capital, accidental, octave⟩ ⟨letter', capital', accidental', octave'⟩ h
  have hname := congrArg Name.parse? h
  rw [parse?_chars, parse?_chars, Option.some.injEq, Spelling.name, Spelling.name,
    Name.mk.injEq] at hname
  obtain rfl := semitones_injective hname.1
  obtain rfl := steps_injective hname.2.1
  obtain rfl := number_injective hname.2.2
  obtain rfl := char_injective letter (List.head_eq_of_cons_eq h)
  rfl

/-- The number of a note is the number of what is named. -/
theorem note_name (spelling : Spelling) : spelling.name.note = spelling.note := by
  rw [Name.note, Spelling.note, Int.mul_comm]
  rfl

/-- Note numbers lie from two below zero to 133. -/
theorem note_between (spelling : Spelling) : -2 ≤ spelling.note ∧ spelling.note ≤ 133 := by
  have hletter : 0 ≤ spelling.letter.semitones ∧ spelling.letter.semitones ≤ 11 := by
    cases spelling.letter <;> decide
  have haccidental : -2 ≤ spelling.accidental.steps ∧ spelling.accidental.steps ≤ 2 := by
    cases spelling.accidental <;> decide
  have hoctave : -1 ≤ spelling.octave.number ∧ spelling.octave.number ≤ 9 := by
    cases spelling.octave with
    | belowZero => decide
    | digit n =>
        have hn := n.isLt
        simp only [Octave.number]
        omega
  rw [Spelling.note]
  omega

/-- Every note name ends with a digit. -/
theorem exists_last_digit (spelling : Spelling) :
    ∃ c, spelling.chars.getLast? = some c ∧ Decimal.isDigit c := by
  obtain ⟨letter, capital, accidental, octave⟩ := spelling
  rw [Spelling.chars, List.getLast?_cons, List.getLast?_append]
  cases octave with
  | belowZero => exact ⟨'1', rfl, rfl⟩
  | digit n => exact ⟨Nat.digitChar n, rfl, Decimal.isDigit_digitChar n.isLt⟩

/-! ## Patterns -/

/-- How a pattern takes a text apart: into a letter, an accidental, and `-1` or a single character
of a class of digits. -/
structure Matched (digit : Char → Bool) (cs : List Char) where
  letter : Letter
  capital : Bool
  accidental : Accidental
  octave : List Char
  chars_eq : letter.char capital :: (accidental.chars ++ octave) = cs
  octave_eq : octave = ['-', '1'] ∨ ∃ c, digit c ∧ octave = [c]

section Patterns

variable {digit : Char → Bool}

/-- Characters after a letter and an accidental are read just as they are read as an integer, if
they are `-1` or single. -/
theorem parse?_append (letter : Letter) (capital : Bool) (accidental : Accidental)
    {octave : List Char} (h : octave = ['-', '1'] ∨ ∃ c, octave = [c]) :
    Name.parse? (letter.char capital :: (accidental.chars ++ octave)) =
      (Decimal.int? octave).map fun octave => ⟨letter.semitones, accidental.steps, octave⟩ := by
  rcases h with rfl | ⟨c, rfl⟩
  · exact parse?_chars ⟨letter, capital, accidental, .belowZero⟩
  · rw [Decimal.int?_singleton]
    by_cases hc : Decimal.isDigit c
    · obtain ⟨n, rfl⟩ := Decimal.exists_digitChar hc
      rw [if_pos hc, Decimal.toNat_digitChar_sub n.isLt]
      exact parse?_chars ⟨letter, capital, accidental, .digit n⟩
    · rw [if_neg hc, Option.map_none, Option.eq_none_iff_forall_ne_some]
      intro name hname
      obtain ⟨spelling, hspelling⟩ := exists_spelling hname
      obtain ⟨last, hlast, hdigit⟩ := exists_last_digit spelling
      rw [hspelling, List.getLast?_cons, List.getLast?_append] at hlast
      cases hlast
      exact hc hdigit

/-- What is matched is read if its octave is an integer, whatever else counts as a digit. -/
theorem Matched.parse?_eq (matched : Matched digit cs) :
    Name.parse? cs = (Decimal.int? matched.octave).map fun octave =>
      ⟨matched.letter.semitones, matched.accidental.steps, octave⟩ := by
  have hoctave : matched.octave = ['-', '1'] ∨ ∃ c, matched.octave = [c] :=
    matched.octave_eq.imp_right fun ⟨c, _, hc⟩ => ⟨c, hc⟩
  have hread := parse?_append matched.letter matched.capital matched.accidental hoctave
  rwa [matched.chars_eq] at hread

/-- What is read is matched, if the decimal digits are digits. -/
theorem exists_matched (hdigit : ∀ c, Decimal.isDigit c → digit c)
    (h : Name.parse? cs = some name) : Nonempty (Matched digit cs) := by
  obtain ⟨⟨letter, capital, accidental, octave⟩, hchars⟩ := exists_spelling h
  refine ⟨⟨letter, capital, accidental, octave.chars, hchars, ?_⟩⟩
  cases octave with
  | belowZero => exact .inl rfl
  | digit n => exact .inr ⟨_, hdigit _ (Decimal.isDigit_digitChar n.isLt), rfl⟩

end Patterns

/-! ## Pitches of names -/

section Pitches

variable {α : Type} [Scalar α] {text : String}

/-- A spelling is read as the pitch of its note. -/
theorem parse_text (spelling : Spelling) :
    parse spelling.text = .ok (ofNoteNumber spelling.note : Pitch α) := by
  rw [parse, Spelling.text, String.toList_ofList, parse?_chars]
  exact congrArg (fun note => Except.ok (ofNoteNumber note)) (note_name spelling)

/-- What is not spelled is refused as a whole. -/
theorem parse_of_not_spelled (h : ¬ ∃ spelling : Spelling, spelling.text = text) :
    parse text = (.error (.parse 0 text .notPitch) : Except (VoicebankError α) (Pitch α)) := by
  have hnone : Name.parse? text.toList = none := by
    rw [Option.eq_none_iff_forall_ne_some]
    intro name hname
    obtain ⟨spelling, hspelling⟩ := exists_spelling hname
    exact h ⟨spelling, by rw [Spelling.text, hspelling, String.ofList_toList]⟩
  rw [parse, hnone]

/-- Only what is spelled has a pitch. -/
theorem exists_spelling_text {pitch : Pitch α} (h : parse text = .ok pitch) :
    ∃ spelling : Spelling, spelling.text = text := by
  by_contra hnone
  rw [parse_of_not_spelled hnone] at h
  cases h

/-- No two spellings have the same text. -/
theorem text_injective : Function.Injective Spelling.text := by
  intro first second h
  exact chars_injective (String.ofList_injective h)

/-- The pitch of what is matched, if the octave is an integer. -/
def Matched.pitch? {digit : Char → Bool} {cs : List Char} (matched : Matched digit cs) :
    Option (Pitch α) :=
  (Decimal.int? matched.octave).map fun octave =>
    ofNoteNumber (matched.letter.semitones + matched.accidental.steps + 12 * (octave + 1))

/-- A text that a pattern takes apart has the pitch of what is matched. -/
theorem parse_eq_ok_iff {digit : Char → Bool} (matched : Matched digit text.toList)
    (pitch : Pitch α) : parse text = .ok pitch ↔ matched.pitch? = some pitch := by
  rw [parse, matched.parse?_eq, Matched.pitch?]
  cases Decimal.int? matched.octave with
  | none => exact ⟨nofun, nofun⟩
  | some octave =>
      have hnote : Name.note ⟨matched.letter.semitones, matched.accidental.steps, octave⟩ =
          matched.letter.semitones + matched.accidental.steps + 12 * (octave + 1) := by
        rw [Name.note, Int.mul_comm]
      simp only [Option.map_some, hnote, Except.ok.injEq, Option.some.injEq]

/-- A text that has a pitch is taken apart by every pattern that lets decimal digits through. -/
theorem matched_of_parse {digit : Char → Bool} (hdigit : ∀ c, Decimal.isDigit c → digit c)
    {pitch : Pitch α} (h : parse text = .ok pitch) : Nonempty (Matched digit text.toList) := by
  obtain ⟨spelling, rfl⟩ := exists_spelling_text h
  have hread : Name.parse? spelling.text.toList = some spelling.name := by
    rw [Spelling.text, String.toList_ofList, parse?_chars]
  exact exists_matched hdigit hread

end Pitches

/-- The texts that have a pitch are the ones that are spelled, and they are spelled in one way. The
pitch is that of the note, which lies between -2 and 133 and does not depend on the case of the
letter. Any other text is refused with line zero and the whole text. All this can be done by a
pattern, which may let more characters through as digits than the decimal ones, as the octave still
has to be an integer. -/
theorem names_read_exactly (α : Type) [Scalar α] (text : String) :
    ((∃ pitch : Pitch α, parse text = .ok pitch) ↔ ∃! spelling : Spelling, spelling.text = text) ∧
    (∀ spelling : Spelling, spelling.text = text →
      parse text = .ok (ofNoteNumber spelling.note : Pitch α) ∧
      (-2 ≤ spelling.note ∧ spelling.note ≤ 133) ∧
      ∀ capital, parse { spelling with capital }.text =
        .ok (ofNoteNumber spelling.note : Pitch α)) ∧
    (∀ error : VoicebankError α, parse text = .error error ↔
      error = .parse 0 text .notPitch ∧ ¬ ∃ spelling : Spelling, spelling.text = text) ∧
    ∀ digit : Char → Bool, (∀ c, Decimal.isDigit c → digit c) →
      (∀ (matched : Matched digit text.toList) (pitch : Pitch α),
        parse text = .ok pitch ↔ matched.pitch? = some pitch) ∧
      ∀ pitch : Pitch α, parse text = .ok pitch → Nonempty (Matched digit text.toList) := by
  refine ⟨⟨?_, ?_⟩, ?_, ?_, fun digit hdigit =>
    ⟨parse_eq_ok_iff, fun pitch => matched_of_parse hdigit⟩⟩
  · rintro ⟨pitch, hpitch⟩
    obtain ⟨spelling, hspelling⟩ := exists_spelling_text hpitch
    exact ⟨spelling, hspelling, fun other hother => text_injective (hother.trans hspelling.symm)⟩
  · rintro ⟨spelling, rfl, -⟩
    exact ⟨_, parse_text spelling⟩
  · rintro spelling rfl
    exact ⟨parse_text spelling, note_between spelling,
      fun capital => parse_text { spelling with capital }⟩
  · intro error
    by_cases hspelled : ∃ spelling : Spelling, spelling.text = text
    · obtain ⟨spelling, rfl⟩ := hspelled
      simp [parse_text]
    · rw [parse_of_not_spelled hspelled]
      exact ⟨fun h => ⟨(Except.error.inj h).symm, hspelled⟩, fun h => congrArg _ h.1.symm⟩

/-- The third octave of the doubly flattened B begins with three equal letters. A digit of another
script is matched in place of an octave, but is no integer. -/
theorem double_flat_read :
    let lowered : Spelling := ⟨.b, false, .doubleFlat, .digit 3⟩
    let isDecimal (c : Char) : Bool := Decimal.isDigit c || '٠' ≤ c && c ≤ '٩'
    lowered.text = "bbb3" ∧ parse "bbb3" = .ok (ofNoteNumber 57 : Pitch Double) ∧
    parse "Bbb3" = .ok (ofNoteNumber 57 : Pitch Double) ∧
    (∀ c, Decimal.isDigit c → isDecimal c) ∧ Nonempty (Matched isDecimal "bb٣".toList) ∧
    ∀ pitch : Pitch Double, parse "bb٣" ≠ .ok pitch := by
  intro lowered isDecimal
  have hdecimal : ∀ c, Decimal.isDigit c → isDecimal c := by
    intro c hc
    simp [isDecimal, hc]
  let matched : Matched isDecimal "bb٣".toList :=
    ⟨.b, false, .flat, ['٣'], rfl, .inr ⟨'٣', rfl, rfl⟩⟩
  obtain ⟨-, hspelled, -, -⟩ := names_read_exactly Double "bbb3"
  obtain ⟨hread, -, hcase⟩ := hspelled lowered rfl
  have hcapital : { lowered with capital := true }.text = "Bbb3" := by decide +kernel
  obtain ⟨-, -, -, hpatterns⟩ := names_read_exactly Double "bb٣"
  refine ⟨rfl, hread, hcapital ▸ hcase true, hdecimal, ⟨matched⟩, fun pitch hpitch => ?_⟩
  cases ((hpatterns isDecimal hdecimal).1 matched pitch).mp hpitch

end SingingVoice.Pitch
