import SingingVoice.Value.Basic

/-!
# Values as JSON

`Value.json` writes a value in JSON, without any space. Numbers that JSON cannot express become
`null`, and texts are quoted with the escapes that JSON demands and no others.
-/

namespace SingingVoice

namespace Json

/-- The hexadecimal digits of a number, at least so many. -/
def hexDigits (width n : Nat) : List Char :=
  let ds := Nat.toDigits 16 n
  List.replicate (width - ds.length) '0' ++ ds

/-- The written form of a character inside quotes. -/
def encodeChar (c : Char) : List Char :=
  match c with
  | '"' => ['\\', '"']
  | '\\' => ['\\', '\\']
  | '\n' => ['\\', 'n']
  | '\r' => ['\\', 'r']
  | '\t' => ['\\', 't']
  | '\x08' => ['\\', 'b']
  | '\x0c' => ['\\', 'f']
  | c => if c < ' ' then ['\\', 'u'] ++ hexDigits 4 c.toNat else [c]

/-- A text in quotes. -/
def quote (text : String) : String :=
  String.ofList ('"' :: text.toList.flatMap encodeChar ++ ['"'])

/-- A decimal number. -/
def number : Decimal → String
  | .finite negative coefficient exponent =>
    Decimal.documentText true negative coefficient exponent
  | _ => "null"

end Json

namespace Value

mutual

/-- Writes a value in JSON. -/
def json : Value → String
  | null => "null"
  | bool truth => toString truth
  | nat number => toString number
  | negated number => "-" ++ toString number
  | float number => Json.number number
  | text string => Json.quote string
  | list items => "[" ++ String.intercalate "," (jsonItems items) ++ "]"
  | map entries => "\x7b" ++ String.intercalate "," (jsonEntries entries) ++ "\x7d"

/-- Writes the items of a list. -/
def jsonItems : List Value → List String
  | [] => []
  | item :: rest => json item :: jsonItems rest

/-- Writes the entries of a map. -/
def jsonEntries : List (Value × Value) → List String
  | [] => []
  | (key, value) :: rest => (json key ++ ":" ++ json value) :: jsonEntries rest

end

end Value

end SingingVoice
