import Ontograph.Text.Unprintable

/-!
# Quoted text in messages

A text inside a message stands between double quotes.  A quote, a backslash, NUL, tab, newline and
carriage return are written with a backslash, every other unprintable character by its number
`\u{…}` in hexadecimal, and all else as it is.
-/

namespace Ontograph.Text

/-- The number of a character in lower-case hexadecimal without leading zeros. -/
def hexadecimal (c : Char) : List Char :=
  Nat.toDigits 16 c.toNat

/-- How one character is written inside quotes. -/
def quotedChar (c : Char) : List Char :=
  match c with
  | '\x00' => ['\\', '0']
  | '\t' => ['\\', 't']
  | '\n' => ['\\', 'n']
  | '\r' => ['\\', 'r']
  | '"' => ['\\', '"']
  | '\\' => ['\\', '\\']
  | c => if isUnprintable c then ['\\', 'u', '\x7b'] ++ hexadecimal c ++ ['\x7d'] else [c]

/-- A text as a message shows it. -/
def quoted (s : String) : String :=
  String.ofList ('"' :: (s.toList.flatMap quotedChar ++ ['"']))

end Ontograph.Text
