import SingingVoice.Yaml.Character

/-!
# Cursors

A cursor is a place in a text: what is left to be read, and where the place is. Blanks and line
breaks between the words of a scalar are read as a `Gap`, which tells what they stand for: blanks on
one line for themselves, a single line break for a space, and further line breaks for themselves.
-/

namespace SingingVoice.Yaml

/-- A place in a text. -/
structure Cursor where
  /-- The text from the place on. -/
  rest : List Char
  /-- The number of line breaks before the place. -/
  line : Nat
  /-- The number of characters before the place in its line. -/
  column : Nat
  /-- The number of bytes before the place. -/
  index : Nat
  /-- The number of characters of the whole text. -/
  size : Nat

namespace Cursor

/-- The start of a text. -/
def ofText (text : List Char) : Cursor :=
  ⟨text, 0, 0, 0, text.length⟩

/-- The place so many characters further in the line. -/
def skip (cursor : Cursor) (count : Nat) : Cursor :=
  { cursor with
    rest := cursor.rest.drop count
    column := cursor.column + count
    index := (cursor.rest.take count).foldl (fun index c => index + c.utf8Size) cursor.index }

/-- The start of the line after a line break. -/
def skipBreak (cursor : Cursor) : Cursor :=
  match cursor.rest with
  | '\r' :: '\n' :: rest =>
    { cursor with rest, line := cursor.line + 1, column := 0, index := cursor.index + 2 }
  | c :: rest =>
    { cursor with rest, line := cursor.line + 1, column := 0, index := cursor.index + c.utf8Size }
  | [] => cursor

/-- Passes over a byte order mark at the start of a line. It takes up a column, so what follows it
is indented. -/
def skipByteOrderMark (cursor : Cursor) : Cursor :=
  if cursor.column = 0 ∧ cursor.rest.head? = some '\uFEFF' then cursor.skip 1 else cursor

/-- What the line break at a place stands for. -/
def breakText (cursor : Cursor) : List Char :=
  match cursor.rest with
  | c :: _ => if c = '\u2028' ∨ c = '\u2029' then [c] else ['\n']
  | [] => []

/-- Reads the characters of a line as long as they satisfy a condition. -/
def takeWhile (cursor : Cursor) (p : Char → Bool) : List Char × Cursor :=
  let taken := cursor.rest.takeWhile fun c => p c && !isBreak c
  (taken, cursor.skip taken.length)

/-- Passes over the characters of a line as long as they satisfy a condition. -/
def skipWhile (cursor : Cursor) (p : Char → Bool) : Cursor :=
  (cursor.takeWhile p).2

/-- Passes over blanks and a comment, after which the line must end. -/
def skipToLineEnd? (cursor : Cursor) : Option Cursor :=
  let cursor := cursor.skipWhile isBlank
  let cursor := if cursor.rest.head? = some '#' then cursor.skipWhile fun _ => true else cursor
  match cursor.rest with
  | [] => some cursor
  | c :: _ => if isBreak c then some cursor.skipBreak else none

end Cursor

/-- What stands between two words of a scalar. -/
structure Gap where
  /-- The blanks in reverse, as long as there is no line break. -/
  blanks : List Char
  /-- Whether there is a line break. -/
  broken : Bool
  /-- The first line break. -/
  first : List Char
  /-- The other line breaks, in reverse. -/
  others : List Char

namespace Gap

/-- Nothing between two words. -/
def empty : Gap :=
  ⟨[], false, [], []⟩

/-- A line break that stands for nothing. -/
def joined : Gap :=
  ⟨[], true, [], []⟩

/-- What a gap stands for. -/
def text (gap : Gap) : List Char :=
  if !gap.broken then gap.blanks.reverse
  else if gap.first ≠ ['\n'] then gap.first ++ gap.others.reverse
  else if gap.others.isEmpty then [' '] else gap.others.reverse

/-- A gap with one more blank, which counts only before the first line break. -/
def addBlank (gap : Gap) (c : Char) : Gap :=
  if gap.broken then gap else { gap with blanks := c :: gap.blanks }

/-- A gap with one more line break. -/
def addBreak (gap : Gap) (lineBreak : List Char) : Gap :=
  if gap.broken then { gap with others := lineBreak ++ gap.others }
  else { gap with blanks := [], broken := true, first := lineBreak }

/-- Reads what is left of a gap, in at most so many steps. Before the given column no line may be
indented by a tab. -/
def read? (indent : Nat) : Nat → Gap → Cursor → Option (Gap × Cursor)
  | 0, gap, cursor => some (gap, cursor)
  | fuel + 1, gap, cursor =>
    match cursor.rest with
    | [] => some (gap, cursor)
    | c :: _ =>
      if isBlank c then
        if gap.broken ∧ cursor.column < indent ∧ c = '\t' then none
        else read? indent fuel (gap.addBlank c) (cursor.skip 1)
      else if isBreak c then
        read? indent fuel (gap.addBreak cursor.breakText) cursor.skipBreak
      else some (gap, cursor)

end Gap

end SingingVoice.Yaml
