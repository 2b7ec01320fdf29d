import SingingVoice.Text.Unicode

/-!
# Lines and trimming

Text falls into lines at line feeds; a carriage return just before a line feed belongs to the line
break. Trimming takes white space off the ends of a line.
-/

namespace SingingVoice.Line

/-- Drops white space at the front. -/
def trimStart (cs : List Char) : List Char :=
  cs.dropWhile Unicode.isWhiteSpace

/-- Drops the longest run of characters at the end that satisfy a test. -/
def dropEndWhile (p : Char → Bool) (cs : List Char) : List Char :=
  (cs.reverse.dropWhile p).reverse

/-- Drops white space at the end. -/
def trimEnd (cs : List Char) : List Char :=
  dropEndWhile Unicode.isWhiteSpace cs

/-- Drops white space at both ends. -/
def trim (cs : List Char) : List Char :=
  trimEnd (trimStart cs)

/-- Splits at every occurrence of a separator: one more part than there are separators. -/
def splitOn (separator : Char) : List Char → List (List Char)
  | [] => [[]]
  | c :: rest =>
    match splitOn separator rest with
    | [] => [[c]]
    | part :: parts => if c = separator then [] :: part :: parts else (c :: part) :: parts

/-- Splits at the first occurrence of a separator, if there is one. -/
def splitOnce? (separator : Char) : List Char → Option (List Char × List Char)
  | [] => none
  | c :: rest =>
    if c = separator then some ([], rest)
    else (splitOnce? separator rest).map fun (before, after) => (c :: before, after)

/-- Drops one carriage return at the end. -/
def dropReturn (cs : List Char) : List Char :=
  if cs.getLast? = some '\r' then cs.dropLast else cs

/-- The lines of a text. Every line feed ends a line; what follows the last one is a line of its own
if it is not empty. -/
def lines (cs : List Char) : List (List Char) :=
  let parts := splitOn '\n' cs
  let last := parts.getLast?.getD []
  parts.dropLast.map dropReturn ++ if last.isEmpty then [] else [last]

end SingingVoice.Line
