import SingingVoice.Proofs.Voicebank.Record
import SingingVoice.Voicebank.Config

/-!
# Sample configurations, line by line

A line of a configuration is readable if it is blank, a section heading or a record. A readable line
contributes its sample, if it has one, and any other line ends the reading (`parseLines_readable`,
`parseLines_unreadable`). From these two steps follow when a configuration is read, what comes of
it, which line is to blame if it is not, and how two configurations one after the other are read:
`parseConfig_exact`.
-/

namespace SingingVoice

/-- The same error if so many lines stand before the text. -/
def VoicebankError.later {α : Type} (lines : Nat) : VoicebankError α → VoicebankError α
  | .parse line entry fault => .parse (line + lines) entry fault
  | error => error

namespace Voicebank

variable {α : Type} [Numeral α] {line : List Char} {lines : List (List Char)} {number : Nat}

/-! ## Lines -/

/-- The normalised lines of a configuration. -/
def configLines (text : String) : List (List Char) :=
  (Line.lines text.toList).map normalizeLine

/-- A section heading starts with a bracket and ends with one. -/
def IsHeading (line : List Char) : Prop :=
  line.head? = some '[' ∧ line.getLast? = some ']'

/-- The sample of a line that is a record. -/
def sample? (line : List Char) : Option (Sample α) :=
  (Sample.parse (String.ofList line)).toOption

variable (α) in
/-- A line is readable if it is blank, a section heading or a record. -/
def Readable (line : List Char) : Prop :=
  line = [] ∨ IsHeading line ∨ ∃ sample : Sample α, Sample.parse (String.ofList line) = .ok sample

theorem isSkipped_iff : isSkipped line ↔ line = [] ∨ IsHeading line := by
  simp [isSkipped, IsHeading]

/-- No heading is a record, since no record ends in a bracket. -/
theorem sample?_of_isHeading (hheading : IsHeading line) : sample? (α := α) line = none := by
  rw [sample?]
  cases hparse : Sample.parse (α := α) (String.ofList line) with
  | ok sample => exact absurd hparse (Sample.parse_ne_ok_of_bracket hheading.2 sample)
  | error error => rfl

theorem sample?_of_isSkipped (hskipped : isSkipped line) : sample? (α := α) line = none := by
  rcases isSkipped_iff.mp hskipped with rfl | hheading
  · rfl
  · exact sample?_of_isHeading hheading

/-- A carriage return at the end of a line is trimmed away. -/
theorem normalizeLine_dropReturn (line : List Char) :
    normalizeLine (Line.dropReturn line) = normalizeLine line := by
  have hreturn : Unicode.isWhiteSpace '\r' := by decide +kernel
  by_cases hlast : line.getLast? = some '\r'
  · obtain ⟨line, rfl⟩ := List.getLast?_eq_some_iff.mp hlast
    rw [Line.dropReturn_append_return, normalizeLine, normalizeLine, List.dropWhile_append]
    split
    case isTrue hempty =>
      rw [List.isEmpty_iff.mp hempty]
      exact (Line.trim_concat hreturn : Line.trim ([] ++ ['\r']) = Line.trim []).symm
    case isFalse => exact (Line.trim_concat hreturn).symm
  · rw [Line.dropReturn_of_ne hlast]

/-! ## One line -/

/-- A readable line contributes its sample. -/
theorem parseLines_readable (hline : Readable α (normalizeLine line)) :
    parseLines (α := α) number (line :: lines) =
      (parseLines (number + 1) lines).map ((sample? (normalizeLine line)).toList ++ ·) := by
  simp only [parseLines]
  split
  case isTrue hskipped =>
    rw [sample?_of_isSkipped hskipped]
    cases parseLines (α := α) (number + 1) lines <;> rfl
  case isFalse hskipped =>
    have hrecord := (or_assoc.mpr hline).resolve_left fun h => hskipped (isSkipped_iff.mpr h)
    obtain ⟨sample, hparse⟩ := hrecord
    simp [sample?, hparse, Except.toOption]

/-- Any other line ends the reading with its number. -/
theorem parseLines_unreadable (hline : ¬ Readable α (normalizeLine line)) :
    ∃ fault,
      Sample.parse (α := α) (String.ofList (normalizeLine line)) =
        .error (.parse 0 (String.ofList (normalizeLine line)) fault) ∧
      ∀ number lines, parseLines (α := α) number (line :: lines) =
        .error (.parse number (String.ofList (normalizeLine line)) fault) := by
  have hskipped : ¬ isSkipped (normalizeLine line) := fun h =>
    hline (or_assoc.mp (Or.inl (isSkipped_iff.mp h)))
  cases hentry : Sample.parseEntry (α := α) (normalizeLine line) with
  | ok sample =>
    refine absurd (Or.inr (Or.inr ⟨sample, ?_⟩)) hline
    simp [Sample.parse, hentry]
  | error fault => 
    have hparse : Sample.parse (α := α) (String.ofList (normalizeLine line)) =
        .error (.parse 0 (String.ofList (normalizeLine line)) fault) := by
      simp [Sample.parse, hentry]
    refine ⟨fault, hparse, fun number lines => ?_⟩
    simp only [parseLines, if_neg hskipped, hparse, VoicebankError.atLine]

/-! ## All lines -/

/-- Lines are read if each is readable, and then give the samples of the records among them. -/
theorem parseLines_ok_iff {samples : List (Sample α)} :
    parseLines number lines = .ok samples ↔
      (∀ line ∈ lines.map normalizeLine, Readable α line) ∧
        samples = (lines.map normalizeLine).filterMap sample? := by
  induction lines generalizing number samples with
  | nil => simp [parseLines, eq_comm]
  | cons line lines ih =>
    by_cases hline : Readable α (normalizeLine line)
    · rw [parseLines_readable hline, Except.map_eq_ok]
      simp only [ih, List.map_cons, List.forall_mem_cons, hline, true_and, and_assoc,
        exists_and_left, exists_eq_left]
      have hfilter : (normalizeLine line :: lines.map normalizeLine).filterMap (sample? (α := α)) =
          (sample? (normalizeLine line)).toList ++ (lines.map normalizeLine).filterMap sample? := by
        cases hsample : sample? (α := α) (normalizeLine line) <;> simp [hsample]
      rw [hfilter, eq_comm (a := samples)]
    · obtain ⟨fault, -, hread⟩ := parseLines_unreadable hline
      rw [hread]
      exact ⟨nofun, fun h => absurd (h.1 _ (by simp)) hline⟩

/-- Lines are read after others as they are alone, with higher numbers. -/
theorem parseLines_append {more : List (List Char)} :
    parseLines (α := α) number (lines ++ more) = (do
      let samples ← parseLines number lines
      let others ← parseLines (number + lines.length) more
      return samples ++ others) := by
  induction lines generalizing number with
  | nil =>
    rw [List.nil_append, List.length_nil, Nat.add_zero]
    cases parseLines (α := α) number more <;> rfl
  | cons line lines ih =>
    rw [List.cons_append]
    by_cases hline : Readable α (normalizeLine line)
    · have hnumber : number + 1 + lines.length = number + (line :: lines).length := by
        rw [List.length_cons]
        omega
      rw [parseLines_readable hline, parseLines_readable hline, ih, hnumber]
      cases parseLines (α := α) (number + 1) lines with
      | error error => rfl
      | ok samples =>
        cases parseLines (α := α) (number + (line :: lines).length) more with
        | error error => rfl
        | ok others => simp [Except.map, pure, Except.pure]
    · obtain ⟨fault, -, hread⟩ := parseLines_unreadable hline
      rw [hread, hread]
      rfl

/-- Unless all lines are readable, there is a first one that is not. -/
theorem exists_first_unreadable (hsome : ¬ ∀ line ∈ lines.map normalizeLine, Readable α line) :
    ∃ before line after, lines = before ++ line :: after ∧
      (∀ line ∈ before.map normalizeLine, Readable α line) ∧
      ¬ Readable α (normalizeLine line) := by
  induction lines with
  | nil => exact absurd nofun hsome
  | cons first lines ih =>
    by_cases hfirst : Readable α (normalizeLine first)
    · rw [List.map_cons, List.forall_mem_cons, not_and] at hsome
      obtain ⟨before, line, after, rfl, hbefore, hline⟩ := ih (hsome hfirst)
      exact ⟨first :: before, line, after, rfl, List.forall_mem_cons.mpr ⟨hfirst, hbefore⟩, hline⟩
    · exact ⟨[], first, lines, rfl, nofun, hfirst⟩

/-- The first line that is not readable is to blame, whatever follows it. -/
theorem parseLines_first_unreadable {before : List (List Char)} (number : Nat)
    (after : List (List Char))
    (hbefore : ∀ line ∈ before.map normalizeLine, Readable α line)
    (hline : ¬ Readable α (normalizeLine line)) :
    ∃ fault,
      Sample.parse (α := α) (String.ofList (normalizeLine line)) =
        .error (.parse 0 (String.ofList (normalizeLine line)) fault) ∧
      parseLines (α := α) number (before ++ line :: after) =
        .error (.parse (number + before.length) (String.ofList (normalizeLine line)) fault) := by
  obtain ⟨fault, hparse, hread⟩ := parseLines_unreadable hline
  refine ⟨fault, hparse, ?_⟩
  rw [parseLines_append, parseLines_ok_iff.mpr ⟨hbefore, rfl⟩, hread]
  rfl

theorem parseLines_error_iff {error : VoicebankError α} :
    parseLines number lines = .error error ↔
      ∃ before line after fault,
        lines.map normalizeLine = before ++ line :: after ∧
        (∀ line ∈ before, Readable α line) ∧ ¬ Readable α line ∧
        Sample.parse (α := α) (String.ofList line) =
          .error (.parse 0 (String.ofList line) fault) ∧
        error = .parse (number + before.length) (String.ofList line) fault := by
  constructor
  · intro hread
    have hsome : ¬ ∀ line ∈ lines.map normalizeLine, Readable α line := fun hall => by
      rw [parseLines_ok_iff.mpr ⟨hall, rfl⟩] at hread
      cases hread
    obtain ⟨before, line, after, rfl, hbefore, hline⟩ := exists_first_unreadable hsome
    obtain ⟨fault, hparse, hblame⟩ :=
      parseLines_first_unreadable number after hbefore hline
    refine ⟨before.map normalizeLine, normalizeLine line, after.map normalizeLine, fault,
      by simp, hbefore, hline, hparse, ?_⟩
    rw [hblame] at hread
    rw [List.length_map]
    exact (Except.error.inj hread).symm
  · rintro ⟨before, line, after, fault, hlines, hbefore, hline, hparse, rfl⟩
    obtain ⟨before, tail, rfl, rfl, htail⟩ := List.map_eq_append_iff.mp hlines
    obtain ⟨line, after, rfl, rfl, rfl⟩ := List.map_eq_cons_iff.mp htail
    obtain ⟨fault', hparse', hblame⟩ :=
      parseLines_first_unreadable number after hbefore hline
    rw [hparse] at hparse'
    obtain rfl : fault = fault' := by simpa using hparse'
    rw [hblame, List.length_map]

/-- Only the numbers of lines depend on the number of the first. -/
theorem parseLines_add (number k : Nat) :
    parseLines (α := α) (number + k) lines = (parseLines number lines).mapError (.later k) := by
  induction lines generalizing number with
  | nil => rfl
  | cons line lines ih =>
    by_cases hline : Readable α (normalizeLine line)
    · rw [parseLines_readable hline, parseLines_readable hline, Nat.add_right_comm, ih]
      cases parseLines (α := α) (number + 1) lines <;> rfl
    · obtain ⟨fault, -, hread⟩ := parseLines_unreadable hline
      rw [hread, hread]
      rfl

/-- Reading lines depends on them only up to normalisation. -/
theorem parseLines_congr {others : List (List Char)}
    (heq : lines.map normalizeLine = others.map normalizeLine) :
    parseLines (α := α) number lines = parseLines number others := by
  cases hread : parseLines (α := α) number lines with
  | ok samples => rw [eq_comm, parseLines_ok_iff, ← heq]; exact parseLines_ok_iff.mp hread
  | error error => rw [eq_comm, parseLines_error_iff, ← heq]; exact parseLines_error_iff.mp hread

/-! ## Configurations -/

/-- The lines of a text that a line feed follows are its own and perhaps a blank one. -/
theorem parseLines_splitOn (a : List Char) :
    parseLines (α := α) number ((a.splitOn '\n').map Line.dropReturn) =
      parseLines number (Line.lines a) := by
  obtain ⟨parts, last, hparts⟩ :=
    (List.eq_nil_or_concat' _).resolve_left (List.splitOn_ne_nil '\n' a)
  rw [Line.lines, Line.splitOn_eq, hparts]
  simp only [List.map_append, List.map_singleton, List.getLast?_concat, Option.getD_some,
    List.dropLast_concat]
  split
  case isTrue hempty =>
    rw [List.isEmpty_iff.mp hempty, List.append_nil, parseLines_append]
    cases parseLines (α := α) number (parts.map Line.dropReturn) with
    | error error => rfl
    | ok samples => exact congrArg Except.ok (List.append_nil samples)
  case isFalse => exact parseLines_congr (by simp [normalizeLine_dropReturn])

/-- Two configurations with a line feed between them are read one after the other. -/
theorem parseConfig_append (a b : String) :
    parseConfig (α := α) (a ++ "\n" ++ b) = (do
      let samples ← parseConfig a
      let more ← (parseConfig b).mapError (.later (a.toList.count '\n' + 1))
      return samples ++ more) := by
  have htext : (a ++ "\n" ++ b).toList = a.toList ++ '\n' :: b.toList := by simp
  rw [parseConfig, htext, Line.lines_append_newline, parseLines_append, parseLines_splitOn,
    List.length_map, Line.length_splitOn, parseLines_add]
  rfl

/-- A configuration falls into the lines that its line feeds end, with or without a carriage return.
It is read if each line, once normalised, is blank, a heading or a record, and gives the samples of
all the records; no heading is one. Otherwise the first other line is to blame, with its number and
whatever follows it. So a configuration may be continued after a line feed by another, whose errors
come with the number of their line in the whole. -/
theorem parseConfig_exact (text : String) :
    (∀ lines, Line.Broken text.toList lines ↔ Line.lines text.toList = lines) ∧
    (∀ samples, parseConfig (α := α) text = .ok samples ↔
      (∀ line ∈ configLines text, Readable α line) ∧
        samples = (configLines text).filterMap sample?) ∧
    (∀ line, IsHeading line → sample? (α := α) line = none) ∧
    (∀ error, parseConfig (α := α) text = .error error ↔
      ∃ before line after fault,
        configLines text = before ++ line :: after ∧
        (∀ line ∈ before, Readable α line) ∧ ¬ Readable α line ∧
        Sample.parse (α := α) (String.ofList line) =
          .error (.parse 0 (String.ofList line) fault) ∧
        error = .parse (before.length + 1) (String.ofList line) fault) ∧
    ∀ a b, parseConfig (α := α) (a ++ "\n" ++ b) = do
      let samples ← parseConfig a
      let more ← (parseConfig b).mapError (.later (a.toList.count '\n' + 1))
      return samples ++ more := by
  refine ⟨fun lines => Line.broken_iff, fun samples => parseLines_ok_iff,
    fun line => sample?_of_isHeading, fun error => ?_, parseConfig_append⟩
  rw [parseConfig, parseLines_error_iff]
  simp only [configLines, Nat.add_comm]

end Voicebank

end SingingVoice
