import SingingVoice.Decimal.Basic
import SingingVoice.Yaml.Cursor

/-!
# Scalars in YAML text

A scalar is written plainly, in quotes of two kinds, or as a block of lines. Each reader below
starts behind what tells the kind and gives the text of the scalar and the place behind it, or
nothing if the scalar is malformed.
-/

namespace SingingVoice.Yaml

/-- How a scalar is written. -/
inductive ScalarStyle where
  /-- As it is. -/
  | plain
  /-- In single quotes. -/
  | singleQuoted
  /-- In double quotes. -/
  | doubleQuoted
  /-- As a block whose lines are kept. -/
  | literal
  /-- As a block whose lines are joined. -/
  | folded
deriving DecidableEq, Repr, Inhabited

namespace Quoted

/-- The characters that a letter after a backslash stands for. -/
def escapes : List (Char × Char) :=
  [('0', '\x00'), ('a', '\x07'), ('b', '\x08'), ('t', '\t'), ('\t', '\t'), ('n', '\n'),
   ('v', '\x0b'), ('f', '\x0c'), ('r', '\r'), ('e', '\x1b'), (' ', ' '), ('"', '"'), ('/', '/'),
   ('\\', '\\'), ('N', '\x85'), ('_', '\xa0'), ('L', '\u2028'), ('P', '\u2029')]

/-- The number of hexadecimal digits after a letter. -/
def hexWidth? : Char → Option Nat
  | 'x' => some 2
  | 'u' => some 4
  | 'U' => some 8
  | _ => none

/-- The character with a number. -/
def charOf? (code : Nat) : Option Char :=
  if code.isValidChar then some (Char.ofNat code) else none

/-- The character that is written after a backslash, and the length of its written form. -/
def unescape? : List Char → Option (Char × Nat)
  | [] => none
  | c :: rest =>
    match hexWidth? c with
    | some width => do
      let ds := rest.take width
      if ds.length < width then none
      let code ← Decimal.natOfDigits? 16 ds
      return (← charOf? code, width + 1)
    | none => (escapes.find? (·.1 = c)).map fun (_, value) => (value, 1)

/-- Reads a quoted scalar up to its closing quote; what has been read comes in reverse. -/
def read? (single : Bool) : Nat → List Char → Cursor → Option (List Char × Cursor)
  | 0, _, _ => none
  | fuel + 1, before, cursor =>
    let gap (gap : Gap) (cursor : Cursor) : Option (List Char × Cursor) := do
      let (gap, cursor) ← gap.read? 0 cursor.size cursor
      read? single fuel (gap.text.reverse ++ before) cursor
    if cursor.column = 0 ∧ startsWithDocumentMark cursor.rest then none
    else
      match cursor.rest with
      | [] => none
      | '\'' :: '\'' :: _ =>
        if single then read? single fuel ('\'' :: before) (cursor.skip 2)
        else read? single fuel ('\'' :: before) (cursor.skip 1)
      | '\\' :: rest =>
        if single then read? single fuel ('\\' :: before) (cursor.skip 1)
        else if rest.head?.any isBreak then gap .joined (cursor.skip 1).skipBreak
        else do
          let (c, length) ← unescape? rest
          read? single fuel (c :: before) (cursor.skip (length + 1))
      | c :: _ =>
        if c = (if single then '\'' else '"') then some (before.reverse, cursor.skip 1)
        else if isWordPart c then read? single fuel (c :: before) (cursor.skip 1)
        else gap .empty cursor

end Quoted

namespace Plain

/-- The next word of a plain scalar, which may be empty. In brackets it also ends before the
indicators of lists and maps, and a colon directly before one of them is malformed. -/
def word? (inFlow : Bool) : List Char → Option (List Char)
  | [] => some []
  | c :: rest =>
    if !isWordPart c then some []
    else if inFlow && c = ':' && rest.head?.any (fun d => isFlowIndicator d || d = '?') then none
    else if (c = ':' && atWordEnd rest) || (inFlow && isFlowIndicator c) then some []
    else (word? inFlow rest).map (c :: ·)

/-- A plain scalar as far as it has been read. -/
structure Result where
  /-- The text, in reverse. -/
  before : List Char
  /-- Whether the scalar ends with a line. -/
  endsLine : Bool
  /-- The place behind the scalar and the gap after it. -/
  cursor : Cursor

/-- Reads a plain scalar whose lines are indented by at least so many columns; what has been read
comes in reverse. -/
def read? (inFlow : Bool) (indent : Nat) : Nat → List Char → Gap → Cursor → Option Result
  | 0, _, _, _ => none
  | fuel + 1, before, gap, cursor =>
    let stop : Result := ⟨before, gap.broken, cursor⟩
    if cursor.column = 0 ∧ startsWithDocumentMark cursor.rest then some stop
    else if cursor.rest.head? = some '#' then some stop
    else do
      let word ← word? inFlow cursor.rest
      if word.isEmpty then return stop
      let before := word.reverse ++ (gap.text.reverse ++ before)
      let cursor := cursor.skip word.length
      let (gap, cursor) ← Gap.empty.read? indent cursor.size cursor
      if !gap.broken ∧ gap.blanks.isEmpty then return ⟨before, false, cursor⟩
      if !inFlow ∧ cursor.column < indent then return ⟨before, gap.broken, cursor⟩
      read? inFlow indent fuel before gap cursor

end Plain

namespace Block

/-- What happens to the line breaks at the end of a block. -/
inductive Chomp where
  /-- All are dropped. -/
  | strip
  /-- The first is kept. -/
  | clip
  /-- All are kept. -/
  | keep
deriving DecidableEq, Repr

/-- The chomping that a character asks for. -/
def chomp? : Char → Option Chomp
  | '+' => some .keep
  | '-' => some .strip
  | _ => none

/-- The indentation that a character asks for; zero is malformed. -/
def increment? (c : Char) : Option (Option Nat) :=
  if c = '0' then none
  else if Decimal.isDigit c then some (some (c.toNat - '0'.toNat)) else some none

/-- Reads the characters after the indicator of a block: the chomping and the indentation, each at
most once. -/
def header? (cursor : Cursor) : Option (Chomp × Option Nat × Cursor) := do
  let first := cursor.rest.head?
  match first.bind chomp? with
  | some chomp =>
    let cursor := cursor.skip 1
    let increment ← ((cursor.rest.head?.map increment?).getD (some none))
    return (chomp, increment, if increment.isSome then cursor.skip 1 else cursor)
  | none =>
    match ← ((first.map increment?).getD (some none)) with
    | none => return (.clip, none, cursor)
    | some increment =>
      let cursor := cursor.skip 1
      match cursor.rest.head?.bind chomp? with
      | some chomp => return (chomp, some increment, cursor.skip 1)
      | none => return (.clip, some increment, cursor)

/-- What precedes a line of a block. -/
structure Margin where
  /-- The line breaks of blank lines. -/
  breaks : List Char
  /-- The widest indentation that has been seen. -/
  widest : Nat
  /-- The place behind the indentation. -/
  cursor : Cursor

/-- Reads blank lines and the indentation of the next line. An indentation that is not yet known is
as wide as can be. Tabs do not indent. -/
def margin? (indent : Option Nat) : Nat → Margin → Option Margin
  | 0, _ => none
  | fuel + 1, margin =>
    let before := margin.cursor
    let spaces := (before.takeWhile (· = ' ')).1.length
    let width := match indent with
      | some indent => min spaces (indent - before.column)
      | none => spaces
    let cursor := before.skip width
    let widest := max margin.widest cursor.column
    let indenting := indent.all (cursor.column < ·)
    match cursor.rest with
    | [] => some { margin with widest, cursor }
    | c :: _ =>
      if indenting ∧ c = '\t' then none
      else if isBreak c then
        margin? indent fuel ⟨margin.breaks ++ cursor.breakText, widest, cursor.skipBreak⟩
      else some { margin with widest, cursor }

/-- A block as far as it has been read. -/
structure Lines where
  /-- The text in reverse, without the line breaks at its end. -/
  before : List Char
  /-- The line break after the last line. -/
  last : List Char
  /-- The line breaks of the blank lines after it. -/
  blank : List Char
  /-- Whether the last line starts with a blank. -/
  indented : Bool
  /-- The place behind what has been read. -/
  cursor : Cursor

/-- What stands for the line breaks between two lines. In a folded block the first is dropped or
becomes a space, unless one of the lines starts with a blank. -/
def between (folded : Bool) (lines : Lines) (indented : Bool) : List Char :=
  if folded ∧ lines.last = ['\n'] ∧ !lines.indented ∧ !indented then
    if lines.blank.isEmpty then [' '] else lines.blank
  else lines.last ++ lines.blank

/-- Reads the lines of a block with a known indentation. -/
def lines? (folded : Bool) (indent : Nat) : Nat → Lines → Option Lines
  | 0, _ => none
  | fuel + 1, lines =>
    match lines.cursor.rest with
    | [] => some lines
    | c :: _ =>
      if lines.cursor.column ≠ indent then some lines
      else do
        let (line, cursor) := lines.cursor.takeWhile fun _ => true
        let gap := between folded lines (isBlank c)
        let before := line.reverse ++ (gap.reverse ++ lines.before)
        let last := cursor.breakText
        let cursor := cursor.skipBreak
        let margin ← margin? (some indent) (cursor.size + 1) ⟨[], 0, cursor⟩
        lines? folded indent fuel ⟨before, last, margin.breaks, isBlank c, margin.cursor⟩

/-- Reads a block inside a collection of the given indentation. -/
def read? (folded : Bool) (parent : Int) (cursor : Cursor) : Option (List Char × Cursor) := do
  let (chomp, increment, cursor) ← header? cursor
  let cursor ← cursor.skipToLineEnd?
  let fuel := cursor.size + 1
  let known := increment.map fun width => (max parent 0).toNat + width
  let margin ← margin? known fuel ⟨[], 0, cursor⟩
  let indent := known.getD (max margin.widest (max (parent + 1) 1).toNat)
  let lines ← lines? folded indent fuel ⟨[], [], margin.breaks, false, margin.cursor⟩
  let ending := match chomp with
    | .strip => []
    | .clip => lines.last
    | .keep => lines.last ++ lines.blank
  return (lines.before.reverse ++ ending, lines.cursor)

end Block

end SingingVoice.Yaml
