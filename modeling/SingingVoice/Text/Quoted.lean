import SingingVoice.Text.Unicode

/-!
# Quoted text

`Quoted.encode` puts text into double quotes for messages. Quotes and backslashes get a backslash,
tabs, line breaks and NUL their letters, and every character that would not be seen its code point.
-/

namespace SingingVoice.Quoted

/-- The code point of a character in lower-case hexadecimal. -/
def codePoint (c : Char) : List Char :=
  Nat.toDigits 16 c.toNat

/-- One character as it stands between the quotes. -/
def encodeChar (c : Char) : List Char :=
  match c with
  | '"' => ['\\', '"']
  | '\\' => ['\\', '\\']
  | '\t' => ['\\', 't']
  | '\r' => ['\\', 'r']
  | '\n' => ['\\', 'n']
  | '\x00' => ['\\', '0']
  | c =>
    if Unicode.isPrintable c then [c]
    else ['\\', 'u', '\x7b'] ++ codePoint c ++ ['\x7d']

/-- Text in double quotes. -/
def encode (text : String) : String :=
  String.ofList ('"' :: text.toList.flatMap encodeChar ++ ['"'])

end SingingVoice.Quoted
