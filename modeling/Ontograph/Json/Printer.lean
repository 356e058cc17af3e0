import Ontograph.Json.Basic

/-!
# Writing JSON

A value is written compactly, without blanks, or indented by two spaces a level.  A string escapes
quotes, backslashes and the controls below U+0020, and nothing else.  Each function here puts the text
of a value in front of what follows it.
-/

namespace Ontograph.Json

/-- A digit in lower-case hexadecimal. -/
def hexChar (n : Nat) : Char :=
  if n < 10 then Char.ofNat (48 + n) else Char.ofNat (87 + n)

/-- How one character is written inside a string. -/
def stringChar (c : Char) : List Char :=
  match c with
  | '"' => ['\\', '"']
  | '\\' => ['\\', '\\']
  | '\x08' => ['\\', 'b']
  | '\t' => ['\\', 't']
  | '\n' => ['\\', 'n']
  | '\x0c' => ['\\', 'f']
  | '\r' => ['\\', 'r']
  | c =>
      if c.toNat < 0x20 then ['\\', 'u', '0', '0', hexChar (c.toNat / 16), hexChar (c.toNat % 16)]
      else [c]

/-- A string in quotes. -/
def writeString (s : String) (rest : List Char) : List Char :=
  '"' :: s.toList.foldr (fun c tail => stringChar c ++ tail) ('"' :: rest)

/-- A value that is no array or object.  An unreadable value is written as `null`. -/
def writeScalar (rest : List Char) : Json → List Char
  | bool true => 't' :: 'r' :: 'u' :: 'e' :: rest
  | bool false => 'f' :: 'a' :: 'l' :: 's' :: 'e' :: rest
  | number n => n.chars true ++ rest
  | string s => writeString s rest
  | _ => 'n' :: 'u' :: 'l' :: 'l' :: rest

/-! ## Compact text -/

mutual

/-- A value without blanks. -/
def write (rest : List Char) : Json → List Char
  | array [] => '[' :: ']' :: rest
  | array (v :: items) => '[' :: write (writeItems rest items) v
  | object [] => '\x7b' :: '\x7d' :: rest
  | object ((key, v) :: members) =>
      '\x7b' :: writeString key (':' :: write (writeMembers rest members) v)
  | v => writeScalar rest v

/-- The elements after the first one, and the end of the array. -/
def writeItems (rest : List Char) : List Json → List Char
  | [] => ']' :: rest
  | v :: items => ',' :: write (writeItems rest items) v

/-- The members after the first one, and the end of the object. -/
def writeMembers (rest : List Char) : List (String × Json) → List Char
  | [] => '\x7d' :: rest
  | (key, v) :: members =>
      ',' :: writeString key (':' :: write (writeMembers rest members) v)

end

/-- The compact text of a value. -/
def compact (v : Json) : String :=
  String.ofList (write [] v)

/-! ## Indented text -/

/-- A new line at a level. -/
def newline (level : Nat) (rest : List Char) : List Char :=
  '\n' :: (List.replicate (2 * level) ' ' ++ rest)

mutual

/-- A value at a level of indentation; empty arrays and objects stay on their line. -/
def indent (rest : List Char) (level : Nat) : Json → List Char
  | array [] => '[' :: ']' :: rest
  | array (v :: items) =>
      '[' :: newline (level + 1) (indent (indentItems rest level items) (level + 1) v)
  | object [] => '\x7b' :: '\x7d' :: rest
  | object ((key, v) :: members) =>
      '\x7b' :: newline (level + 1) (writeString key
        (':' :: ' ' :: indent (indentMembers rest level members) (level + 1) v))
  | v => writeScalar rest v

/-- The elements after the first one, and the end of the array. -/
def indentItems (rest : List Char) (level : Nat) : List Json → List Char
  | [] => newline level (']' :: rest)
  | v :: items =>
      ',' :: newline (level + 1) (indent (indentItems rest level items) (level + 1) v)

/-- The members after the first one, and the end of the object. -/
def indentMembers (rest : List Char) (level : Nat) : List (String × Json) → List Char
  | [] => newline level ('\x7d' :: rest)
  | (key, v) :: members =>
      ',' :: newline (level + 1) (writeString key
        (':' :: ' ' :: indent (indentMembers rest level members) (level + 1) v))

end

/-- The indented text of a value. -/
def indented (v : Json) : String :=
  String.ofList (indent [] 0 v)

end Ontograph.Json
