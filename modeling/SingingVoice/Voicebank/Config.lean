import SingingVoice.Voicebank.Sample

/-!
# Sample configurations

The text that describes the samples of a voicebank has one record in a line. Blank lines and
section headings in brackets are skipped.
-/

namespace SingingVoice.Voicebank

variable {α : Type} [Numeral α]

/-- A line without byte order marks at its front and without white space at its ends. -/
def normalizeLine (line : List Char) : List Char :=
  Line.trim (line.dropWhile (· = '\uFEFF'))

/-- Whether a normalised line holds no record: it is blank or a section heading. -/
def isSkipped (line : List Char) : Bool :=
  line.isEmpty || (line.head? = some '[' && line.getLast? = some ']')

/-- Reads lines, the first of which has the given number. -/
def parseLines : Nat → List (List Char) → Except (VoicebankError α) (List (Sample α))
  | _, [] => .ok []
  | number, line :: rest =>
    let line := normalizeLine line
    if isSkipped line then parseLines (number + 1) rest
    else
      match Sample.parse (String.ofList line) with
      | .error error => .error (error.atLine number)
      | .ok sample => (parseLines (number + 1) rest).map (sample :: ·)

/-- Reads a sample configuration. The first line that is no record fails it, with its number. -/
def parseConfig (text : String) : Except (VoicebankError α) (List (Sample α)) :=
  parseLines 1 (Line.lines text.toList)

end SingingVoice.Voicebank
