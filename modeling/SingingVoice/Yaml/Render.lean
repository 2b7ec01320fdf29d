import SingingVoice.Yaml.Style

/-!
# Writing YAML

`Value.yaml` writes a value as a document. Collections are told by indentation: the entries of a map
inside another are indented by two columns, the items of a list inside a map are not, and empty
collections are written in brackets. A key that has several lines or more than 128 bytes is written
after a question mark, and its value after a colon on the next line.
-/

namespace SingingVoice

namespace Yaml

/-- The most bytes of a key that is written before its colon. -/
def maxKeySize : Nat :=
  128

/-- Whether a text is written before its colon when it is a key. -/
def isSimpleKey (text : String) : Bool :=
  text.utf8ByteSize ≤ maxKeySize && !text.toList.any isBreak

/-- Ends the line that a text ends with. -/
def endLine (text : List Char) : List Char :=
  if text.getLast?.any isBreak then text else text ++ ['\n']

/-- The texts of the parts of a collection, each but the first behind spaces. -/
def joinLines (indent : Nat) (parts : List (List Char)) : List Char :=
  (parts.intersperse (Scalar.pad indent)).flatten

end Yaml

namespace Value

open Yaml

mutual

/-- Writes a value from the given column on, where the first line starts; the last line is ended. -/
def yamlLines (indent : Nat) : Value → List Char
  | list (item :: rest) => joinLines indent (yamlItems indent (item :: rest))
  | map (entry :: rest) => joinLines indent (yamlEntries indent (entry :: rest))
  | list [] => "[]\n".toList
  | map [] => "\x7b\x7d\n".toList
  | null => "null\n".toList
  | bool truth => endLine (toString truth).toList
  | nat number => endLine (toString number).toList
  | negated number => endLine ('-' :: (toString number).toList)
  | float number => endLine (Scalar.number number).toList
  | text string => endLine (Scalar.render indent string)

/-- Writes the items of a list. -/
def yamlItems (indent : Nat) : List Value → List (List Char)
  | [] => []
  | item :: rest =>
    ('-' :: ' ' :: yamlLines (indent + Scalar.indentWidth) item) :: yamlItems indent rest

/-- Writes the entries of a map. -/
def yamlEntries (indent : Nat) : List (Value × Value) → List (List Char)
  | [] => []
  | (text key, value) :: rest =>
    let inner := indent + Scalar.indentWidth
    let written := Scalar.render inner key
    let entry :=
      if isSimpleKey key then
        match value with
        | list (_ :: _) =>
          written ++ ':' :: '\n' :: Scalar.pad indent ++ yamlLines indent value
        | map (_ :: _) => written ++ ':' :: '\n' :: Scalar.pad inner ++ yamlLines inner value
        | _ => written ++ ':' :: ' ' :: yamlLines inner value
      else
        '?' :: ' ' :: endLine written ++ Scalar.pad indent ++ ':' :: ' ' :: yamlLines inner value
    entry :: yamlEntries indent rest
  | (key, value) :: rest =>
    let inner := indent + Scalar.indentWidth
    ('?' :: ' ' :: yamlLines inner key ++ Scalar.pad indent ++ ':' :: ' ' :: yamlLines inner value)
      :: yamlEntries indent rest

end

/-- Writes a value as a document. -/
def yaml (value : Value) : String :=
  String.ofList (value.yamlLines 0)

end Value

end SingingVoice
