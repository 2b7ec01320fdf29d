import SingingVoice.Yaml.Resolution

/-!
# Writing scalars in YAML

A text is written plainly if that reads back as the same text. Otherwise it is put into single
quotes, into double quotes if characters have to be escaped, or into a block if it has several
lines. `ScalarStyle.ofText` makes the choice, and `Scalar.render` writes the text.
-/

namespace SingingVoice.Yaml

namespace Shape

/-- Whether two neighbours in a text satisfy two conditions. -/
def hasNeighbours (p q : Char → Bool) (text : List Char) : Bool :=
  (text.zip text.tail).any fun (c, d) => p c && q d

/-- Whether a character is a space. -/
def isSpace (c : Char) : Bool :=
  c = ' '

/-- Whether a text has a character that is not written as itself, or a space before a line break. -/
def needsEscapes (text : List Char) : Bool :=
  !text.all isPrintable || hasNeighbours isSpace isBreak text

/-- Whether an indicator at the front of a text keeps it from being plain. -/
def startsWithIndicator : List Char → Bool
  | [] => false
  | c :: rest =>
    "#,[]\x7b\x7d&*!|>'\"%@\x60".toList.contains c || ("?:-".toList.contains c && atWordEnd rest)

/-- Whether a colon at the end of a word, or a number sign at the start of one, keeps a text from
being plain. -/
def hasIndicator : List Char → Bool
  | c :: d :: rest =>
    (d = ':' && atWordEnd rest) || (d = '#' && !isWordPart c) || hasIndicator (d :: rest)
  | _ => false

/-- Whether a text keeps its meaning when it is written as it is, apart from what it resolves to. -/
def allowsPlain (text : List Char) : Bool :=
  let isEdge (c : Char) : Bool := isSpace c || isBreak c
  let hasMark := text.take 3 = ['-', '-', '-'] || text.take 3 = ['.', '.', '.']
  !(needsEscapes text || text.any isBreak || text.head?.any isEdge || text.getLast?.any isEdge ||
    hasMark || startsWithIndicator text || hasIndicator text)

/-- Whether a text may be put into single quotes. -/
def allowsSingleQuotes (text : List Char) : Bool :=
  !(needsEscapes text || hasNeighbours isBreak isSpace text)

/-- Whether a text may be put into a block whose lines are kept. -/
def allowsLiteral (text : List Char) : Bool :=
  !(needsEscapes text || text.getLast?.any isSpace)

/-- Whether a plain text would be read as something else, or looks like a number. -/
def isAmbiguous (text : List Char) : Bool :=
  let resolves := match Plain.value? (String.ofList text) with
    | some (.text _) => false
    | _ => true
  resolves || Plain.hasLeadingZero (Decimal.splitSign text).2

end Shape

/-- How a text is written. -/
def ScalarStyle.ofText (text : List Char) : ScalarStyle :=
  if text.contains '\n' then if Shape.allowsLiteral text then .literal else .doubleQuoted
  else if !Shape.isAmbiguous text ∧ Shape.allowsPlain text then .plain
  else if Shape.allowsSingleQuotes text then .singleQuoted
  else .doubleQuoted

namespace Scalar

/-- So many spaces. -/
def pad (count : Nat) : List Char :=
  List.replicate count ' '

/-- A text with spaces at the start of every line but the first; blank lines get none. The flag says
whether the text is at the start of a line. -/
def indentLines (indent : Nat) : Bool → List Char → List Char
  | _, [] => []
  | atStart, c :: rest =>
    if isBreak c then c :: indentLines indent true rest
    else (if atStart then pad indent else []) ++ c :: indentLines indent false rest

/-- A text in single quotes; a quote is written twice. A quote at the start of a line is indented as
other lines are. -/
def singleQuoted (indent : Nat) (text : List Char) : List Char :=
  let doubled := text.flatMap fun c => if c = '\'' then ['\'', '\''] else [c]
  '\'' :: indentLines indent false (doubled ++ ['\''])

/-- The hexadecimal digits of a number, with capitals and at least so many. -/
def hexDigits (width n : Nat) : List Char :=
  let ds := (Nat.toDigits 16 n).map Char.toUpper
  List.replicate (width - ds.length) '0' ++ ds

/-- The letters that are written after a backslash for characters. -/
def escapeLetters : List (Char × Char) :=
  [('\x00', '0'), ('\x07', 'a'), ('\x08', 'b'), ('\t', 't'), ('\n', 'n'), ('\x0b', 'v'),
   ('\x0c', 'f'), ('\r', 'r'), ('\x1b', 'e'), ('"', '"'), ('\\', '\\'), ('\x85', 'N'),
   ('\xa0', '_'), ('\u2028', 'L'), ('\u2029', 'P')]

/-- A character in double quotes. -/
def escapeChar (c : Char) : List Char :=
  if isPrintable c && !isBreak c && c ≠ '"' && c ≠ '\\' then [c]
  else
    match escapeLetters.lookup c with
    | some letter => ['\\', letter]
    | none =>
      if c ≤ '\xff' then '\\' :: 'x' :: hexDigits 2 c.toNat
      else if c ≤ '\uffff' then '\\' :: 'u' :: hexDigits 4 c.toNat
      else '\\' :: 'U' :: hexDigits 8 c.toNat

/-- A text in double quotes. -/
def doubleQuoted (text : List Char) : List Char :=
  '"' :: text.flatMap escapeChar ++ ['"']

/-- The width of one level of indentation. -/
def indentWidth : Nat :=
  2

/-- What is written after the indicator of a block: its indentation, if the first line does not show
it, and what happens to the line breaks at its end. -/
def literalHeader (text : List Char) : List Char :=
  let hidden := text.head?.any fun c => c = ' ' || isBreak c
  let hint := if hidden then Decimal.digits indentWidth else []
  let chomping := match text.reverse with
    | [] => ['-']
    | last :: before =>
      if !isBreak last then ['-'] else if before.head?.all isBreak then ['+'] else []
  hint ++ chomping

/-- A text as a block whose lines are kept. -/
def literal (indent : Nat) (text : List Char) : List Char :=
  '|' :: literalHeader text ++ '\n' :: indentLines indent true text

/-- Writes a text whose further lines are indented by so many columns. -/
def render (indent : Nat) (text : String) : List Char :=
  let text := text.toList
  match ScalarStyle.ofText text with
  | .plain => text
  | .literal => literal indent text
  | .doubleQuoted => doubleQuoted text
  | _ => singleQuoted indent text

/-- Writes a decimal number. -/
def number : Decimal → String
  | .nan => ".nan"
  | .infinity negative => Decimal.signText negative ++ ".inf"
  | .finite negative coefficient exponent =>
    Decimal.documentText false negative coefficient exponent

end Scalar

end SingingVoice.Yaml
