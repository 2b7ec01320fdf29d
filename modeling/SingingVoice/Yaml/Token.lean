import SingingVoice.Yaml.Scalar
import SingingVoice.Yaml.Tag

/-!
# Tokens of YAML

`Token.ofText?` cuts a text into tokens. Collections that are told by indentation get tokens for
their start and end, and a key gets a token before it. That a scalar is a key shows only at the
colon behind it, so the places where keys may have started are kept: one for every level of
brackets, valid within its line and for 1024 bytes.
-/

namespace SingingVoice.Yaml

/-- A token of a document. -/
inductive Token where
  /-- The version that a document asks for. -/
  | version (major minor : Nat)
  /-- A short form for the front of tags. -/
  | tagHandle (handle : String) (expansion : Tag)
  | documentStart
  | documentEnd
  | blockListStart
  | blockMapStart
  | blockEnd
  | flowListStart
  | flowListEnd
  | flowMapStart
  | flowMapEnd
  | blockEntry
  | flowEntry
  | key
  | value
  /-- A node that has been given a name before. -/
  | reference (name : String)
  /-- A name for the next node. -/
  | anchor (name : String)
  | tag (handle : String) (suffix : Tag)
  | scalar (style : ScalarStyle) (text : String)
  | endOfText
deriving DecidableEq, Repr, Inhabited

/-- A place where a key may have started. -/
structure KeyPlace where
  /-- Whether the key would be the first thing in its line, so that it must be one. -/
  required : Bool
  /-- The number of tokens before it. -/
  tokens : Nat
  /-- Where it starts. -/
  line : Nat
  column : Nat
  index : Nat

/-- A text as far as it has been cut into tokens. -/
structure Lexer where
  /-- The place in the text. -/
  cursor : Cursor
  /-- The tokens so far. -/
  tokens : Array Token
  /-- The column of the innermost collection that is told by indentation, or -1. -/
  indent : Int
  /-- The columns of the collections around it. -/
  outer : List Int
  /-- Whether a key may start here. -/
  keyAllowed : Bool
  /-- Where a key may have started outside of brackets. -/
  key : Option KeyPlace
  /-- Where keys may have started, for every level of brackets around the innermost. -/
  outerKeys : List (Option KeyPlace)

namespace Lexer

/-- A text of which no token has been cut. -/
def ofText (text : List Char) : Lexer :=
  ⟨Cursor.ofText text, #[], -1, [], true, none, []⟩

/-- Whether the place is inside brackets. -/
def inFlow (lexer : Lexer) : Bool :=
  !lexer.outerKeys.isEmpty

/-- Adds a token. -/
def push (lexer : Lexer) (token : Token) : Lexer :=
  { lexer with tokens := lexer.tokens.push token }

/-- Adds a token before the one with a number. -/
def pushAt (lexer : Lexer) (number : Nat) (token : Token) : Lexer :=
  { lexer with tokens := lexer.tokens.insertIdxIfInBounds number token }

/-- Adds a token for a number of characters. -/
def take (lexer : Lexer) (count : Nat) (token : Token) : Lexer :=
  { lexer with tokens := lexer.tokens.push token, cursor := lexer.cursor.skip count }

/-- Opens a collection if the column is right of the innermost one. -/
def openBlock (lexer : Lexer) (column number : Nat) (token : Token) : Lexer :=
  if !lexer.inFlow ∧ lexer.indent < column then
    { lexer with
      tokens := lexer.tokens.insertIdxIfInBounds number token
      indent := column
      outer := lexer.indent :: lexer.outer }
  else lexer

/-- Closes the collections right of a column, of which there are at most so many. -/
def closeBlocksFrom (column : Int) : List Int → Lexer → Lexer
  | [], lexer => lexer
  | indent :: outer, lexer =>
    if column < lexer.indent then
      closeBlocksFrom column outer { lexer.push .blockEnd with indent, outer }
    else lexer

/-- Closes the collections right of a column. Brackets stay open in any column. -/
def closeBlocks (lexer : Lexer) (column : Int) : Lexer :=
  if lexer.inFlow then lexer else closeBlocksFrom column lexer.outer lexer

/-- The most bytes between the start of a key and its colon. -/
def maxKeyLength : Nat :=
  1024

/-- Whether a key that started at a place may still end here. -/
def reaches (lexer : Lexer) (place : KeyPlace) : Bool :=
  place.line = lexer.cursor.line && lexer.cursor.index ≤ place.index + maxKeyLength

/-- Drops the innermost place; a required key must not be lost. -/
def dropKey? (lexer : Lexer) : Option Lexer :=
  if lexer.key.any KeyPlace.required then none else some { lexer with key := none }

/-- Drops the innermost place if it is too far back. The places around it are looked at when their
brackets close. -/
def refreshKey? (lexer : Lexer) : Option Lexer :=
  if lexer.key.all lexer.reaches then some lexer else lexer.dropKey?

/-- Marks the place as one where a key may start. -/
def markKey? (lexer : Lexer) : Option Lexer :=
  if lexer.keyAllowed then do
    let lexer ← lexer.dropKey?
    let place : KeyPlace := {
      required := !lexer.inFlow && lexer.indent = lexer.cursor.column
      tokens := lexer.tokens.size
      line := lexer.cursor.line
      column := lexer.cursor.column
      index := lexer.cursor.index }
    return { lexer with key := some place }
  else some lexer

/-- Says whether a key may start next. -/
def allowKey (lexer : Lexer) (allowed : Bool) : Lexer :=
  { lexer with keyAllowed := allowed }

/-- Passes over blanks, comments and line breaks. Tabs are passed over only where no key may start,
and a byte order mark only where a line starts. At a new line outside of brackets a key may
start. -/
def skipSpace : Nat → Lexer → Lexer
  | 0, lexer => lexer
  | fuel + 1, lexer =>
    let tabs := lexer.inFlow || !lexer.keyAllowed
    let cursor :=
      lexer.cursor.skipByteOrderMark.skipWhile fun c => c = ' ' || (tabs && c = '\t')
    let cursor :=
      if cursor.rest.head? = some '#' then cursor.skipWhile fun _ => true else cursor
    let lexer := { lexer with cursor }
    if cursor.rest.head?.any isBreak then
      skipSpace fuel
        { lexer with cursor := cursor.skipBreak, keyAllowed := lexer.keyAllowed || !lexer.inFlow }
    else lexer

/-- The end of the text. -/
def finish? (lexer : Lexer) : Option Lexer := do
  let lexer ← (lexer.closeBlocks (-1)).dropKey?
  return (lexer.allowKey false).push .endOfText

/-- A mark that begins or ends a document. -/
def documentMark? (lexer : Lexer) (token : Token) : Option Lexer := do
  let lexer ← (lexer.closeBlocks (-1)).dropKey?
  return (lexer.allowKey false).take 3 token

/-- A number in a directive. -/
def number? (cursor : Cursor) : Option (Nat × Cursor) := do
  let (ds, cursor) := cursor.takeWhile Decimal.isDigit
  if 9 < ds.length then none
  return (← Decimal.natOfDigits? 10 ds, cursor)

/-- The version in a directive. -/
def version? (cursor : Cursor) : Option (Token × Cursor) := do
  let (major, cursor) ← number? cursor
  if cursor.rest.head? ≠ some '.' then none
  let (minor, cursor) ← number? (cursor.skip 1)
  return (.version major minor, cursor)

/-- Whether a character may stand in a tag. -/
def isTagPart (c : Char) : Bool :=
  isNamePart c || ";/?:@&=+$.%!~*'()".toList.contains c

/-- Whether a character may stand in a tag that is written in full. -/
def isVerbatimPart (c : Char) : Bool :=
  isTagPart c || ",[]".toList.contains c

/-- Reads the characters of a tag, of which there may be none. -/
def tagText? (cursor : Cursor) (p : Char → Bool) : Option (Tag × Cursor) := do
  let (written, cursor) := cursor.takeWhile p
  return (← Tag.ofWritten? written, cursor)

/-- Reads the characters of a tag, of which there must be some. -/
def someTagText? (cursor : Cursor) (p : Char → Bool) : Option (Tag × Cursor) :=
  if cursor.rest.head?.any p then tagText? cursor p else none

/-- Reads a handle: an exclamation mark and, if another one follows, the name between them. -/
def handle? (cursor : Cursor) : Option (String × Cursor) := do
  if cursor.rest.head? ≠ some '!' then none
  let (name, cursor) := (cursor.skip 1).takeWhile isNamePart
  if cursor.rest.head? = some '!' then
    return ("!" ++ String.ofList name ++ "!", cursor.skip 1)
  return ("!" ++ String.ofList name, cursor)

/-- The short form in a directive. -/
def tagHandle? (cursor : Cursor) : Option (Token × Cursor) := do
  let (handle, cursor) ← handle? cursor
  if handle ≠ "!" ∧ handle.toList.getLast? ≠ some '!' then none
  if !cursor.rest.head?.any isBlank then none
  let (expansion, cursor) ← someTagText? (cursor.skipWhile isBlank) isVerbatimPart
  if !atWordEnd cursor.rest then none
  return (.tagHandle handle expansion, cursor)

/-- A directive, which takes a whole line. -/
def directive? (lexer : Lexer) : Option Lexer := do
  let lexer ← (lexer.closeBlocks (-1)).dropKey?
  let (name, cursor) := (lexer.cursor.skip 1).takeWhile isNamePart
  if name.isEmpty ∨ !atWordEnd cursor.rest then none
  let cursor := cursor.skipWhile isBlank
  let (token, cursor) ←
    if name = "YAML".toList then version? cursor
    else if name = "TAG".toList then tagHandle? cursor else none
  return { (lexer.allowKey false).push token with cursor := ← cursor.skipToLineEnd? }

/-- The start of a collection in brackets. -/
def openFlow? (lexer : Lexer) (token : Token) : Option Lexer := do
  let lexer ← lexer.markKey?
  let lexer := { lexer with key := none, outerKeys := lexer.key :: lexer.outerKeys }
  return (lexer.allowKey true).take 1 token

/-- The end of a collection in brackets. -/
def closeFlow? (lexer : Lexer) (token : Token) : Option Lexer := do
  let lexer ← lexer.dropKey?
  let lexer := match lexer.outerKeys with
    | [] => lexer
    | key :: outerKeys => { lexer with key, outerKeys }
  return (lexer.allowKey false).take 1 token

/-- The comma between the items of a collection in brackets. -/
def flowEntry? (lexer : Lexer) : Option Lexer := do
  let lexer ← lexer.dropKey?
  return (lexer.allowKey true).take 1 .flowEntry

/-- An indicator that opens a collection told by indentation if there is none in its column. It may
stand only where a key may start. -/
def indicator? (lexer : Lexer) (opening token : Token) (allowed : Bool) : Option Lexer := do
  if !lexer.inFlow ∧ !lexer.keyAllowed then none
  let lexer := lexer.openBlock lexer.cursor.column lexer.tokens.size opening
  let lexer ← lexer.dropKey?
  return (lexer.allowKey allowed).take 1 token

/-- The colon between a key and its value. -/
def value? (lexer : Lexer) : Option Lexer :=
  match lexer.key with
  | some place =>
    let lexer := lexer.pushAt place.tokens .key
    let lexer := lexer.openBlock place.column place.tokens .blockMapStart
    some (({ lexer with key := none }.allowKey false).take 1 .value)
  | none => lexer.indicator? .blockMapStart .value !lexer.inFlow

/-- Whether the name of an anchor may end before a text. -/
def endsName (rest : List Char) : Bool :=
  atWordEnd rest || rest.head?.any fun c => "?:,]\x7d%@\x60".toList.contains c

/-- An anchor or a reference to one. -/
def name? (lexer : Lexer) (token : String → Token) : Option Lexer := do
  let lexer ← lexer.markKey?
  let (name, cursor) := (lexer.cursor.skip 1).takeWhile isNamePart
  if name.isEmpty ∨ !endsName cursor.rest then none
  return { (lexer.allowKey false).push (token (String.ofList name)) with cursor }

/-- A tag that is written in full, or one with a handle and a suffix. A lone exclamation mark is a
suffix without a handle. -/
def tagToken? (cursor : Cursor) : Option (Token × Cursor) := do
  match cursor.rest with
  | '!' :: '<' :: _ =>
    let (suffix, cursor) ← someTagText? (cursor.skip 2) isVerbatimPart
    if cursor.rest.head? ≠ some '>' then none
    return (.tag "" suffix, cursor.skip 1)
  | _ =>
    let (handle, after) ← handle? cursor
    if handle ≠ "!" ∧ handle.toList.getLast? = some '!' then
      let (suffix, cursor) ← someTagText? after isTagPart
      return (.tag handle suffix, cursor)
    else
      let (suffix, cursor) ← tagText? (cursor.skip 1) isTagPart
      return (if suffix.bytes.isEmpty then .tag "" .mark else .tag "!" suffix, cursor)

/-- A tag. -/
def tag? (lexer : Lexer) : Option Lexer := do
  let lexer ← lexer.markKey?
  let (token, cursor) ← tagToken? lexer.cursor
  if !atWordEnd cursor.rest ∧ !(lexer.inFlow ∧ cursor.rest.head? = some ',') then none
  return { (lexer.allowKey false).push token with cursor }

/-- A block of lines. -/
def block? (lexer : Lexer) (style : ScalarStyle) : Option Lexer := do
  let lexer ← lexer.dropKey?
  let (text, cursor) ← Block.read? (style = .folded) lexer.indent (lexer.cursor.skip 1)
  return { (lexer.allowKey true).push (.scalar style (String.ofList text)) with cursor }

/-- A scalar in quotes. -/
def quoted? (lexer : Lexer) (style : ScalarStyle) : Option Lexer := do
  let lexer ← lexer.markKey?
  let cursor := lexer.cursor.skip 1
  let (text, cursor) ← Quoted.read? (style = .singleQuoted) (cursor.size + 1) [] cursor
  return { (lexer.allowKey false).push (.scalar style (String.ofList text)) with cursor }

/-- A plain scalar. After one that ends with its line a key may start. -/
def plain? (lexer : Lexer) : Option Lexer := do
  let lexer ← lexer.markKey?
  let cursor := lexer.cursor
  let scalar ← Plain.read? lexer.inFlow (lexer.indent + 1).toNat (cursor.size + 1) [] .empty cursor
  let token := Token.scalar .plain (String.ofList scalar.before.reverse)
  return { (lexer.allowKey scalar.endsLine).push token with cursor := scalar.cursor }

/-- Whether a plain scalar may start with a character before a text. -/
def startsPlain (inFlow : Bool) (c : Char) (rest : List Char) : Bool :=
  if c = '-' then !rest.head?.any isBlank
  else if c = '?' || c = ':' then !inFlow && !atWordEnd rest
  else isWordPart c && !",[]\x7b\x7d#&*!|>'\"%@\x60".toList.contains c

/-- Cuts the next token, and those that come with it. -/
def next? (lexer : Lexer) : Option Lexer := do
  let lexer := skipSpace (lexer.cursor.size + 1) lexer
  let lexer ← lexer.refreshKey?
  let lexer := lexer.closeBlocks lexer.cursor.column
  match lexer.cursor.rest with
  | [] => lexer.finish?
  | c :: rest =>
    let atStart := lexer.cursor.column = 0
    let alone := atWordEnd rest
    if atStart ∧ c = '%' then lexer.directive?
    else if atStart ∧ startsWithMark '-' (c :: rest) then lexer.documentMark? .documentStart
    else if atStart ∧ startsWithMark '.' (c :: rest) then lexer.documentMark? .documentEnd
    else if c = '[' then lexer.openFlow? .flowListStart
    else if c = '\x7b' then lexer.openFlow? .flowMapStart
    else if c = ']' then lexer.closeFlow? .flowListEnd
    else if c = '\x7d' then lexer.closeFlow? .flowMapEnd
    else if c = ',' then lexer.flowEntry?
    else if c = '-' ∧ alone then lexer.indicator? .blockListStart .blockEntry true
    else if c = '?' ∧ (lexer.inFlow ∨ alone) then
      lexer.indicator? .blockMapStart .key !lexer.inFlow
    else if c = ':' ∧ (lexer.inFlow ∨ alone) then lexer.value?
    else if c = '*' then lexer.name? .reference
    else if c = '&' then lexer.name? .anchor
    else if c = '!' then lexer.tag?
    else if c = '|' ∧ !lexer.inFlow then lexer.block? .literal
    else if c = '>' ∧ !lexer.inFlow then lexer.block? .folded
    else if c = '\'' then lexer.quoted? .singleQuoted
    else if c = '"' then lexer.quoted? .doubleQuoted
    else if startsPlain lexer.inFlow c rest then lexer.plain?
    else none

/-- Cuts tokens until the end of the text. Every one takes a character, so there are not more than
so many. -/
def all? : Nat → Lexer → Option Lexer
  | 0, _ => none
  | fuel + 1, lexer => do
    let lexer ← lexer.next?
    if lexer.tokens.back? = some .endOfText then return lexer
    all? fuel lexer

end Lexer

/-- The tokens of a text, if all its characters may stand in a document. -/
def Token.ofText? (text : String) : Option (List Token) := do
  let lexer := Lexer.ofText text.toList
  if !lexer.cursor.rest.all isAllowed then none
  let lexer ← Lexer.all? (lexer.cursor.size + 1) lexer
  return lexer.tokens.toList

end SingingVoice.Yaml
