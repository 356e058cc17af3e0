import Ontograph.Number.Decimal

/-!
# Tokens of a JSON text

A JSON text is cut into tokens by a machine that takes one character at a time (`Scan.step`).  Between
tokens it skips blanks; a run of other characters is a word or a numeral, which ends before the next
blank or mark; a string runs from quote to quote, and its escapes are resolved on the way.

Main statements: `Scan.run_append` (scanning goes on where it stopped).
-/

namespace Ontograph.Json

/-- A token of a JSON text.  The content of a string is `none` if it holds half of a surrogate
pair. -/
inductive Token where
  | openBrace
  | closeBrace
  | openBracket
  | closeBracket
  | colon
  | comma
  | null
  | bool (b : Bool)
  | number (n : Numeral)
  | string (content : Option String)
deriving DecidableEq

namespace Token

/-- The mark that is a token by itself. -/
def mark? : Char → Option Token
  | '\x7b' => some openBrace
  | '\x7d' => some closeBrace
  | '[' => some openBracket
  | ']' => some closeBracket
  | ':' => some colon
  | ',' => some comma
  | _ => none

/-- The blanks between tokens. -/
def isBlank (c : Char) : Bool :=
  c = ' ' || c = '\t' || c = '\n' || c = '\r'

/-! ## Words and numerals -/

/-- A numeral after its sign: a whole part that does not begin with a superfluous zero, a point with
at least one digit after it or no point, an exponent or none. -/
def unsigned? (negative : Bool) (text : List Char) : Option Numeral :=
  let (whole, rest) := Digit.span text
  if whole.isEmpty || (whole.head? = some Digit.zero && whole.length ≠ 1) then none
  else
    match rest with
    | '.' :: tail =>
        let (fraction, rest) := Digit.span tail
        if fraction.isEmpty then none
        else (Numeral.exponentPart? rest).map fun e => ⟨negative, whole, fraction, e⟩
    | rest => (Numeral.exponentPart? rest).map fun e => ⟨negative, whole, [], e⟩

/-- The numeral that a run of characters is. -/
def numeral? : List Char → Option Numeral
  | '-' :: rest => unsigned? true rest
  | text => unsigned? false text

/-- The token that a run of characters without blanks, marks and quotes is. -/
def bare? (text : List Char) : Option Token :=
  if text = ['n', 'u', 'l', 'l'] then some null
  else if text = ['t', 'r', 'u', 'e'] then some (bool true)
  else if text = ['f', 'a', 'l', 's', 'e'] then some (bool false)
  else (numeral? text).map number

end Token

/-! ## Strings -/

/-- The content of a string so far, last character first, where `none` is half of a surrogate pair;
and the first half of a pair whose second half may come next. -/
structure Content where
  chars : List (Option Char)
  high : Option Nat

namespace Content

/-- The empty content. -/
def empty : Content := ⟨[], none⟩

/-- The characters with a first half that found no second one. -/
def settled (content : Content) : List (Option Char) :=
  match content.high with
  | none => content.chars
  | some _ => none :: content.chars

/-- One more character. -/
def push (content : Content) (c : Char) : Content :=
  ⟨some c :: content.settled, none⟩

/-- One more 16-bit unit: the second half of a pair joins the first one if that came just before. -/
def pushUnit (content : Content) (unit : Nat) : Content :=
  if 0xd800 ≤ unit ∧ unit < 0xdc00 then ⟨content.settled, some unit⟩
  else if 0xdc00 ≤ unit ∧ unit < 0xe000 then
    match content.high with
    | some high =>
        ⟨some (Char.ofNat (0x10000 + (high - 0xd800) * 0x400 + (unit - 0xdc00))) :: content.chars,
          none⟩
    | none => ⟨none :: content.chars, none⟩
  else content.push (Char.ofNat unit)

/-- The finished text, if it is one. -/
def text? (content : Content) : Option String :=
  (content.settled.reverse.mapM id).map String.ofList

end Content

/-- The character that a backslash and one more character stand for. -/
def escaped? : Char → Option Char
  | '"' => some '"'
  | '\\' => some '\\'
  | '/' => some '/'
  | 'b' => some '\x08'
  | 'f' => some '\x0c'
  | 'n' => some '\n'
  | 'r' => some '\r'
  | 't' => some '\t'
  | _ => none

/-- The value of a hexadecimal digit. -/
def hexDigit? (c : Char) : Option Nat :=
  if '0' ≤ c ∧ c ≤ '9' then some (c.toNat - '0'.toNat)
  else if 'a' ≤ c ∧ c ≤ 'f' then some (c.toNat - 'a'.toNat + 10)
  else if 'A' ≤ c ∧ c ≤ 'F' then some (c.toNat - 'A'.toNat + 10)
  else none

/-! ## The machine -/

/-- Where in the text the machine is. -/
inductive Place where
  /-- Between two tokens. -/
  | between
  /-- In a word or numeral; the characters so far, last one first. -/
  | bare (seen : List Char)
  /-- In a string. -/
  | quoted (content : Content)
  /-- In a string, after a backslash. -/
  | escape (content : Content)
  /-- In a string, in a hexadecimal escape with `left` more digits to come after the next one. -/
  | hex (content : Content) (left : Nat) (value : Nat)

/-- The machine: its place, and the tokens that are complete, last one first. -/
structure Scan where
  place : Place
  done : List Token

namespace Scan

/-- Before the first character. -/
def start : Scan := ⟨.between, []⟩

/-- What one character does between tokens. -/
def begin (done : List Token) (c : Char) : Scan :=
  if Token.isBlank c then ⟨.between, done⟩
  else if c = '"' then ⟨.quoted Content.empty, done⟩
  else match Token.mark? c with
    | some token => ⟨.between, token :: done⟩
    | none => ⟨.bare [c], done⟩

/-- What one character does. -/
def step (c : Char) (scan : Scan) : Option Scan :=
  match scan.place with
  | .between => some (begin scan.done c)
  | .bare seen =>
      if Token.isBlank c || c = '"' || (Token.mark? c).isSome then
        (Token.bare? seen.reverse).map fun token => begin (token :: scan.done) c
      else some ⟨.bare (c :: seen), scan.done⟩
  | .quoted content =>
      if c = '"' then some ⟨.between, Token.string content.text? :: scan.done⟩
      else if c = '\\' then some ⟨.escape content, scan.done⟩
      else if c.toNat < 0x20 then none
      else some ⟨.quoted (content.push c), scan.done⟩
  | .escape content =>
      if c = 'u' then some ⟨.hex content 3 0, scan.done⟩
      else (escaped? c).map fun c' => ⟨.quoted (content.push c'), scan.done⟩
  | .hex content left value =>
      (hexDigit? c).map fun digit =>
        match left with
        | 0 => ⟨.quoted (content.pushUnit (16 * value + digit)), scan.done⟩
        | left + 1 => ⟨.hex content left (16 * value + digit), scan.done⟩

/-- What a list of characters does. -/
def run : List Char → Scan → Option Scan
  | [], scan => some scan
  | c :: rest, scan =>
      match scan.step c with
      | none => none
      | some next => run rest next

/-- A text does what its parts do one after the other. -/
theorem run_append (first second : List Char) (scan : Scan) :
    run (first ++ second) scan = (run first scan).bind (run second) := by
  induction first generalizing scan with
  | nil => rfl
  | cons c rest ih =>
      simp only [List.cons_append, run]
      cases scan.step c with
      | none => rfl
      | some next => exact ih next

/-- All tokens, once the text has ended. -/
def finish (scan : Scan) : Option (List Token) :=
  match scan.place with
  | .between => some scan.done.reverse
  | .bare seen => (Token.bare? seen.reverse).map fun token => (token :: scan.done).reverse
  | _ => none

end Scan

/-- The tokens of a JSON text. -/
def Token.ofText? (text : String) : Option (List Token) :=
  (Scan.run text.toList Scan.start).bind Scan.finish

end Ontograph.Json
