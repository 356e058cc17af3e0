/-!
# Decimal numbers as they are written

A `Digit` is a number below ten.  A `Numeral` is a decimal number part by part as it is written: sign,
whole part, fraction, exponent.  A `Scientific` is a run of digits with the decimal exponent of the
first one.  A `Layout` says for which exponents a number is written positionally, and how.
-/

namespace Ontograph

/-! ## Digits -/

/-- A decimal digit. -/
abbrev Digit := Fin 10

namespace Digit

/-- The digit zero. -/
def zero : Digit := 0

/-- The character of a digit. -/
def toChar (d : Digit) : Char :=
  Char.ofNat (48 + d.val)

/-- The digit that a character stands for. -/
def ofChar? (c : Char) : Option Digit :=
  if h : 48 ≤ c.toNat ∧ c.toNat < 58 then some ⟨c.toNat - 48, by omega⟩ else none

theorem ofChar?_toChar (d : Digit) : ofChar? d.toChar = some d := by
  revert d
  decide

/-- The number that a run of digits stands for. -/
def value (digits : List Digit) : Nat :=
  digits.foldl (fun n d => 10 * n + d.val) 0

/-- The digits of a number after those in `tail`, with enough fuel for all of them. -/
def ofNatAux : Nat → Nat → List Digit → List Digit
  | 0, _, tail => tail
  | fuel + 1, n, tail =>
      let digits := ⟨n % 10, Nat.mod_lt n (by decide)⟩ :: tail
      if n < 10 then digits else ofNatAux fuel (n / 10) digits

/-- The digits of a number, the first one not zero unless it is the only one. -/
def ofNat (n : Nat) : List Digit :=
  ofNatAux (n.log2 + 1) n []

/-- The digits at the start of a text, and the rest. -/
def span : List Char → List Digit × List Char
  | [] => ([], [])
  | c :: rest =>
      match ofChar? c with
      | none => ([], c :: rest)
      | some d =>
          let (digits, tail) := span rest
          (d :: digits, tail)

end Digit

/-- A power of ten. -/
def tenTo (n : Nat) : Nat :=
  Nat.pow 10 n

/-! ## Numerals -/

/-- A decimal number as it is written: an optional minus sign, a whole part, a fraction after the
point if it is not empty, and an optional exponent. -/
structure Numeral where
  negative : Bool
  whole : List Digit
  fraction : List Digit
  exponent : Option Int
deriving DecidableEq

namespace Numeral

/-- The numeral of an integer. -/
def ofInt (n : Int) : Numeral :=
  ⟨n < 0, Digit.ofNat n.natAbs, [], none⟩

/-- The characters of an exponent; `plus` says whether a sign is written when it is not negative. -/
def exponentChars (plus : Bool) (e : Int) : List Char :=
  let sign := if e < 0 then ['-'] else if plus then ['+'] else []
  'e' :: (sign ++ (Digit.ofNat e.natAbs).map Digit.toChar)

/-- The characters of a numeral. -/
def chars (plus : Bool) (n : Numeral) : List Char :=
  let sign := if n.negative then ['-'] else []
  let fraction := if n.fraction.isEmpty then [] else '.' :: n.fraction.map Digit.toChar
  let exponent := match n.exponent with
    | none => []
    | some e => exponentChars plus e
  sign ++ n.whole.map Digit.toChar ++ fraction ++ exponent

/-- The exponent after its mark and sign, up to the end of the text. -/
def exponentDigits? (negative : Bool) (text : List Char) : Option Int :=
  match Digit.span text with
  | (d :: digits, []) =>
      let value : Int := Digit.value (d :: digits)
      some (if negative then -value else value)
  | _ => none

/-- What follows whole part and fraction up to the end of the text: nothing, or `e` or `E`, an
optional sign and at least one digit. -/
def exponentPart? : List Char → Option (Option Int)
  | [] => some none
  | c :: rest =>
      if c = 'e' ∨ c = 'E' then
        match rest with
        | '-' :: tail => (exponentDigits? true tail).map some
        | '+' :: tail => (exponentDigits? false tail).map some
        | tail => (exponentDigits? false tail).map some
      else none

end Numeral

/-! ## Layout -/

/-- The digits `d₀ d₁ d₂ …` of the number `d₀.d₁d₂… · 10 ^ exponent`. -/
structure Scientific where
  digits : List Digit
  exponent : Int
deriving DecidableEq

/-- How a format writes numbers that are not integers by kind: positionally, and then always with a
fraction, from the exponent `lowest` to the exponent `highest`, and else with an exponent, which has
a sign when it is not negative if `plus` says so. -/
structure Layout where
  lowest : Int
  highest : Int
  plus : Bool

namespace Layout

/-- The digits written positionally, with zeros up to the point and at least one place after it. -/
def positional (negative : Bool) (s : Scientific) : Numeral :=
  if 0 ≤ s.exponent then
    let count := s.exponent.toNat + 1
    let whole := s.digits.take count
    let padding := List.replicate (count - whole.length) Digit.zero
    let rest := s.digits.drop count
    ⟨negative, whole ++ padding, if rest.isEmpty then [Digit.zero] else rest, none⟩
  else
    ⟨negative, [Digit.zero], List.replicate ((-s.exponent).toNat - 1) Digit.zero ++ s.digits, none⟩

/-- The numeral of a signed number in a layout. -/
def numeral (layout : Layout) (negative : Bool) (s : Scientific) : Numeral :=
  if layout.lowest ≤ s.exponent ∧ s.exponent ≤ layout.highest then positional negative s
  else ⟨negative, s.digits.take 1, s.digits.drop 1, some s.exponent⟩

end Layout

end Ontograph
