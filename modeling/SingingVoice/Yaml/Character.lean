/-!
# Characters of YAML

The classes of characters that the rules of YAML are written in.
-/

namespace SingingVoice.Yaml

/-- Whether a character ends a line. -/
def isBreak (c : Char) : Bool :=
  c = '\n' || c = '\r' || c = '\x85' || c = '\u2028' || c = '\u2029'

/-- Whether a character separates words on a line. -/
def isBlank (c : Char) : Bool :=
  c = ' ' || c = '\t'

/-- Whether a character belongs to a word. -/
def isWordPart (c : Char) : Bool :=
  !isBlank c && !isBreak c

/-- Whether no word goes on at the front of a text. -/
def atWordEnd : List Char → Bool
  | [] => true
  | c :: _ => !isWordPart c

/-- Whether a character is written as itself. -/
def isPrintable (c : Char) : Bool :=
  c = '\n' || (' ' ≤ c && c ≤ '~') || ('\xa0' ≤ c && c ≤ '\uFFFD' && c ≠ '\uFEFF') ||
    '\uFFFF' < c

/-- Whether a character may stand in a document. -/
def isAllowed (c : Char) : Bool :=
  isPrintable c || c = '\t' || c = '\r' || c = '\x85' || c = '\uFEFF'

/-- Whether a character may stand in a name of an anchor or of a directive. -/
def isNamePart (c : Char) : Bool :=
  ('0' ≤ c && c ≤ '9') || ('A' ≤ c && c ≤ 'Z') || ('a' ≤ c && c ≤ 'z') || c = '_' || c = '-'

/-- Whether a character separates the parts of lists and maps in brackets. -/
def isFlowIndicator (c : Char) : Bool :=
  c = ',' || c = '[' || c = ']' || c = '\x7b' || c = '\x7d'

/-- Whether a text starts with the mark between documents: three times the character, as a word. -/
def startsWithMark (mark : Char) (text : List Char) : Bool :=
  text.take 3 = [mark, mark, mark] && atWordEnd (text.drop 3)

/-- Whether a text starts with a mark that begins or ends a document. -/
def startsWithDocumentMark (text : List Char) : Bool :=
  startsWithMark '-' text || startsWithMark '.' text

end SingingVoice.Yaml
